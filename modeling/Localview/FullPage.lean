import Localview.VisualImage
import Mathlib.Data.List.Range
import Mathlib.Data.Rat.Floor

/-! # Full-page stitching

`crates/visual/src/full_page.rs`: the scroll offsets that cover a document, the size of the
image they make, and the tiles copied into it row by row.

CSS sizes are exact rationals, so they are finite and the `is_finite` checks are left out.
Tops and the height are rounded each by itself; they fit together because a viewport is a
whole number of rows, and rounding moves with whole numbers (`roundAway_add`).
-/
namespace Localview
open EarlyReturn RowBuffer List

/-- `f64::round`: a half goes away from zero. -/
def roundAway (x : ℚ) : Int := if x < 0 then -⌊-x + 1 / 2⌋ else ⌊x + 1 / 2⌋

/-- The bounds of a capture. -/
structure FullPagePolicy where
  maxTiles : Nat
  maxDocumentCssHeight : ℚ
  (maxOutputRgbaBytes maxOutputPixelHeight : Nat)

/-- Where to scroll for each tile. -/
structure FullPagePlan where
  (documentCssWidth documentCssHeight viewportCssWidth viewportCssHeight : ℚ)
  scrollOffsetsY : List ℚ
  deriving DecidableEq

/-- The size of the stitched image. -/
structure FullPageOutputGeometry where
  (pixelWidth pixelHeight rgbaBytes : Nat)
  deriving DecidableEq

/-- Why a page is not planned or stitched. -/
inductive FullPageError
  | invalidGeometry
  | invalidPolicy
  | widthMismatch
  | documentTooTall
  | tileBudgetExceeded
  | outputMemoryBudgetExceeded
  | outputPixelHeightExceeded
  | arithmeticOverflow
  | invalidImage
  | placementOutOfBounds
  deriving DecidableEq

namespace FullPage

/-! ## Planning -/

def validatePolicy (policy : FullPagePolicy) : Except FullPageError Unit :=
  rejectIf (policy.maxTiles = 0 ∨ policy.maxDocumentCssHeight ≤ 0 ∨
    policy.maxOutputRgbaBytes = 0 ∨ policy.maxOutputPixelHeight = 0) .invalidPolicy

/-- `windows(2).any(|pair| pair[0] >= pair[1])` -/
def notIncreasing : List ℚ → Bool
  | first :: second :: rest => decide (second ≤ first) || notIncreasing (second :: rest)
  | [_] | [] => false

/-- The loop of `plan_full_page`; the first argument is the number of tiles the budget still
allows. -/
def planLoop (viewport maxScroll : ℚ) : Nat → ℚ → List ℚ → Except FullPageError (List ℚ)
  | 0, next, offsets =>
      if next < maxScroll then .error .tileBudgetExceeded else .ok offsets
  | room + 1, next, offsets =>
      if next < maxScroll then planLoop viewport maxScroll room (next + viewport) (offsets ++ [next])
      else .ok offsets

def planOffsets (viewport maxScroll : ℚ) (maxTiles : Nat) : Except FullPageError (List ℚ) :=
  if 0 < maxScroll then do
    let offsets ← planLoop viewport maxScroll (maxTiles - 1) viewport [0]
    if offsets.getLast? ≠ some maxScroll then do
      rejectIf (maxTiles ≤ offsets.length) .tileBudgetExceeded
      return offsets ++ [maxScroll]
    else return offsets
  else return [0]

def planFullPage (documentCssWidth documentCssHeight viewportCssWidth viewportCssHeight
    originalScrollY : ℚ) (policy : FullPagePolicy) : Except FullPageError FullPagePlan := do
  validatePolicy policy
  rejectIf (documentCssWidth ≤ 0 ∨ documentCssHeight ≤ 0 ∨ viewportCssWidth ≤ 0 ∨
    viewportCssHeight ≤ 0 ∨ originalScrollY < 0) .invalidGeometry
  rejectIf (documentCssWidth ≠ viewportCssWidth) .widthMismatch
  rejectIf (policy.maxDocumentCssHeight < documentCssHeight) .documentTooTall
  let maxScrollY := max (documentCssHeight - viewportCssHeight) 0
  rejectIf (maxScrollY < originalScrollY) .invalidGeometry
  let scrollOffsetsY ← planOffsets viewportCssHeight maxScrollY policy.maxTiles
  rejectIf (policy.maxTiles < scrollOffsetsY.length) .tileBudgetExceeded
  rejectIf (notIncreasing scrollOffsetsY = true) .invalidGeometry
  return ⟨documentCssWidth, documentCssHeight, viewportCssWidth, viewportCssHeight,
    scrollOffsetsY⟩

/-! ## The size of the output -/

def validatePlan (plan : FullPagePlan) (policy : FullPagePolicy) : Except FullPageError Unit := do
  rejectIf (plan.documentCssWidth ≤ 0 ∨ plan.documentCssHeight ≤ 0 ∨ plan.viewportCssWidth ≤ 0 ∨
    plan.viewportCssHeight ≤ 0 ∨ plan.scrollOffsetsY = []) .invalidGeometry
  rejectIf (plan.documentCssWidth ≠ plan.viewportCssWidth) .widthMismatch
  rejectIf (policy.maxDocumentCssHeight < plan.documentCssHeight) .documentTooTall
  rejectIf (policy.maxTiles < plan.scrollOffsetsY.length) .tileBudgetExceeded
  let maxScrollY := max (plan.documentCssHeight - plan.viewportCssHeight) 0
  rejectIf (plan.scrollOffsetsY.any (fun offset =>
      decide (offset < 0) || decide (maxScrollY < offset)) = true ∨
    notIncreasing plan.scrollOffsetsY = true) .invalidGeometry

/-- `checked_mul` of `usize`s -/
def checkedMul (a b : Nat) : Except FullPageError Nat := do
  rejectIf (usizeMax < a * b) .arithmeticOverflow
  return a * b

/-- `checked_add`, below a bound -/
def checkedAdd (bound a b : Nat) : Except FullPageError Nat := do
  rejectIf (bound < a + b) .arithmeticOverflow
  return a + b

def projectFullPageOutput (plan : FullPagePlan) (tilePixelWidth tilePixelHeight : Nat)
    (policy : FullPagePolicy) : Except FullPageError FullPageOutputGeometry := do
  validatePolicy policy
  validatePlan plan policy
  rejectIf (tilePixelWidth = 0 ∨ tilePixelHeight = 0) .invalidGeometry
  let scaleY : ℚ := tilePixelHeight / plan.viewportCssHeight
  rejectIf (scaleY ≤ 0) .invalidGeometry
  let projectedHeight := roundAway (plan.documentCssHeight * scaleY)
  rejectIf (projectedHeight ≤ 0) .invalidGeometry
  rejectIf ((u32Max : Int) < projectedHeight) .arithmeticOverflow
  let pixelHeight := projectedHeight.toNat
  rejectIf (policy.maxOutputPixelHeight < pixelHeight) .outputPixelHeightExceeded
  let pixels ← checkedMul tilePixelWidth pixelHeight
  let rgbaBytes ← checkedMul pixels 4
  rejectIf (policy.maxOutputRgbaBytes < rgbaBytes) .outputMemoryBudgetExceeded
  return { pixelWidth := tilePixelWidth, pixelHeight, rgbaBytes }

/-! ## Stitching -/

/-- `get(start..end)` -/
def slice (data : List UInt8) (first last : Nat) : Option (List UInt8) :=
  if first ≤ last ∧ last ≤ data.length then some ((data.drop first).take (last - first)) else none

/-- One turn of the loop of `stitch_full_page_tile`: the output's bytes, with a row copied. -/
def copyRow (tile : List UInt8) (rowBytes topPx row : Nat) (data : List UInt8) :
    Except FullPageError (List UInt8) := do
  let sourceStart ← checkedMul row rowBytes
  let sourceEnd ← checkedAdd usizeMax sourceStart rowBytes
  let destinationRow ← checkedAdd u32Max topPx row
  let destinationStart ← checkedMul destinationRow rowBytes
  let destinationEnd ← checkedAdd usizeMax destinationStart rowBytes
  let source ← okOr (slice tile sourceStart sourceEnd) .invalidImage
  discard (okOr (slice data destinationStart destinationEnd) .invalidImage)
  return overwrite data destinationStart source

/-- The loop: so many rows, from one on. -/
def copyRows (tile : List UInt8) (rowBytes topPx : Nat) :
    Nat → Nat → List UInt8 → Except FullPageError Unit × List UInt8
  | 0, _, data => (.ok (), data)
  | count + 1, row, data =>
      match copyRow tile rowBytes topPx row data with
      | .error e => (.error e, data)
      | .ok data => copyRows tile rowBytes topPx count (row + 1) data

/-- The checks of `stitch_full_page_tile`, and the row the tile starts at. -/
def placeTile (output : RgbaImage) (viewportCssHeight actualScrollY : ℚ) (tile : RgbaImage) :
    Except FullPageError (Nat × Nat) := do
  output.validate.mapError fun _ => .invalidImage
  tile.validate.mapError fun _ => .invalidImage
  rejectIf (output.width ≠ tile.width) .widthMismatch
  rejectIf (viewportCssHeight ≤ 0 ∨ actualScrollY < 0) .invalidGeometry
  let scaleY : ℚ := tile.height / viewportCssHeight
  let topPx := roundAway (actualScrollY * scaleY)
  rejectIf (scaleY ≤ 0 ∨ topPx < 0) .invalidGeometry
  rejectIf ((output.height : Int) ≤ topPx) .placementOutOfBounds
  rejectIf ((u32Max : Int) < topPx) .arithmeticOverflow
  let rowBytes ← checkedMul output.width 4
  return (topPx.toNat, rowBytes)

def stitchFullPageTile (output : RgbaImage) (viewportCssHeight actualScrollY : ℚ)
    (tile : RgbaImage) : Except FullPageError Unit × RgbaImage :=
  match placeTile output viewportCssHeight actualScrollY tile with
  | .error e => (.error e, output)
  | .ok (topPx, rowBytes) =>
      let (result, data) := copyRows tile.data rowBytes topPx
        (min tile.height (output.height - topPx)) 0 output.data
      (result, { output with data })

def stitchAll (viewportCssHeight : ℚ) (tile : ℚ → RgbaImage) :
    List ℚ → RgbaImage → Except FullPageError Unit × RgbaImage
  | [], output => (.ok (), output)
  | offset :: offsets, output =>
      match stitchFullPageTile output viewportCssHeight offset (tile offset) with
      | (.error e, output) => (.error e, output)
      | (.ok (), output) => stitchAll viewportCssHeight tile offsets output

/-! ## Rounding -/

section
variable {x y : ℚ}

theorem roundAway_of_nonneg (h : 0 ≤ x) : roundAway x = ⌊x + 1 / 2⌋ := if_neg h.not_gt

theorem roundAway_nonneg (h : 0 ≤ x) : 0 ≤ roundAway x := by
  rw [roundAway_of_nonneg h]
  exact Int.floor_nonneg.mpr (by linarith)

theorem roundAway_mono (h : 0 ≤ x) (hle : x ≤ y) : roundAway x ≤ roundAway y := by
  rw [roundAway_of_nonneg h, roundAway_of_nonneg (h.trans hle)]
  exact Int.floor_le_floor (by linarith)

/-- Rounding moves with whole numbers. -/
theorem roundAway_add (h : 0 ≤ x) (n : Nat) : roundAway (x + n) = roundAway x + n := by
  have hsum : 0 ≤ x + n := add_nonneg h (Nat.cast_nonneg n)
  rw [roundAway_of_nonneg h, roundAway_of_nonneg hsum, add_right_comm]
  exact Int.floor_add_natCast _ n

@[simp] theorem roundAway_zero : roundAway 0 = 0 := by
  have h := roundAway_of_nonneg le_rfl
  rw [h]
  norm_num

end

/-! ## What is planned -/

section
variable {viewport maxScroll : ℚ}

/-- The offsets a whole number of viewports down. -/
def multiples (viewport : ℚ) (n : Nat) : List ℚ :=
  (List.range n).map fun k : Nat => (k : ℚ) * viewport

theorem multiples_succ (viewport : ℚ) (n : Nat) :
    multiples viewport (n + 1) = multiples viewport n ++ [(n : ℚ) * viewport] := by
  rw [multiples, range_succ, map_append, multiples]
  rfl

variable {offsets : List ℚ}

/-- The loop stops at the first multiple that reaches the end. -/
theorem planLoop_spec {room n : Nat}
    (h : planLoop viewport maxScroll room ((n + 1 : Nat) * viewport) (multiples viewport (n + 1)) =
      .ok offsets)
    (hbelow : n * viewport < maxScroll) :
    ∃ m : Nat, offsets = multiples viewport (m + 1) ∧ m * viewport < maxScroll ∧
      maxScroll ≤ (m + 1 : Nat) * viewport := by
  induction room generalizing n with
  | zero =>
    rw [planLoop] at h
    split_ifs at h with hnext
    exact ⟨n, (Except.ok.inj h).symm, hbelow, not_lt.mp hnext⟩
  | succ room ih =>
    rw [planLoop] at h
    split_ifs at h with hnext
    · rw [← multiples_succ] at h
      refine ih (n := n + 1) ?_ hnext
      rw [← h]
      congr 1
      push_cast
      ring
    · exact ⟨n, (Except.ok.inj h).symm, hbelow, not_lt.mp hnext⟩

/-- The offsets are the top, or multiples of the viewport and the end. -/
theorem planOffsets_spec {maxTiles : Nat}
    (h : planOffsets viewport maxScroll maxTiles = .ok offsets) :
    maxScroll ≤ 0 ∧ offsets = [0] ∨
      0 < maxScroll ∧ ∃ m : Nat, offsets = multiples viewport (m + 1) ++ [maxScroll] ∧
        m * viewport < maxScroll ∧ maxScroll ≤ (m + 1 : Nat) * viewport := by
  rw [planOffsets] at h
  split_ifs at h with hpositive
  · obtain ⟨found, hloop, hlast⟩ := bind_eq_ok.mp h
    have hstart : planLoop viewport maxScroll (maxTiles - 1) ((0 + 1 : Nat) * viewport)
        (multiples viewport (0 + 1)) = .ok found := by
      rw [← hloop]
      congr 1
      · norm_num
      · simp [multiples]
    obtain ⟨m, rfl, hbelow, hreach⟩ := planLoop_spec hstart (by simpa using hpositive)
    -- the last multiple is below the end, so the end is pushed
    have hne : (multiples viewport (m + 1)).getLast? ≠ some maxScroll := by
      rw [multiples_succ, getLast?_concat, ne_eq, Option.some.injEq]
      exact hbelow.ne
    rw [if_pos hne] at hlast
    obtain ⟨_, -, hlast⟩ := bind_eq_ok.mp hlast
    exact .inr ⟨hpositive, m, (Except.ok.inj hlast).symm, hbelow, hreach⟩
  · exact .inl ⟨not_lt.mp hpositive, (Except.ok.inj h).symm⟩

/-- Offsets that go from the top to the end, no further apart than the viewport. -/
structure Spans (viewport document : ℚ) (offsets : List ℚ) : Prop where
  first : offsets.head? = some 0
  last : offsets.getLast? = some (max (document - viewport) 0)
  sorted : offsets.Pairwise (· < ·)
  near : offsets.IsChain fun offset next => next - offset ≤ viewport

theorem mem_multiples {n : Nat} {offset : ℚ} :
    offset ∈ multiples viewport n ↔ ∃ k < n, offset = (k : ℚ) * viewport := by
  rw [multiples, mem_map]
  simp only [mem_range, eq_comm]

theorem sorted_multiples (h : 0 < viewport) (n : Nat) :
    (multiples viewport n).Pairwise (· < ·) := by
  rw [multiples, pairwise_map]
  refine pairwise_lt_range.imp fun {k k'} hlt => ?_
  exact mul_lt_mul_of_pos_right (Nat.cast_lt.mpr hlt) h

theorem near_multiples (viewport : ℚ) (n : Nat) :
    (multiples viewport (n + 1)).IsChain fun offset next => next - offset ≤ viewport := by
  rw [multiples, isChain_map, isChain_range_succ]
  intro k _
  push_cast
  linarith

theorem spans_of_plan {document : ℚ} (hviewport : 0 < viewport) {maxTiles : Nat}
    (h : planOffsets viewport (max (document - viewport) 0) maxTiles = .ok offsets) :
    Spans viewport document offsets := by
  obtain ⟨hend, rfl⟩ | ⟨hpositive, m, rfl, hbelow, hreach⟩ := planOffsets_spec h
  · have hzero : max (document - viewport) 0 = 0 := hend.antisymm (le_max_right _ _)
    exact ⟨rfl, by rw [hzero]; rfl, pairwise_singleton _ _, List.IsChain.singleton _⟩
  · have hbelow' : ∀ offset ∈ multiples viewport (m + 1), offset < max (document - viewport) 0 := by
      intro offset hin
      obtain ⟨k, hk, rfl⟩ := mem_multiples.mp hin
      refine lt_of_le_of_lt (mul_le_mul_of_nonneg_right ?_ hviewport.le) hbelow
      exact_mod_cast Nat.lt_succ_iff.mp hk
    refine ⟨?_, getLast?_concat, ?_, ?_⟩
    · rw [head?_append, multiples, head?_map, head?_range]
      simp
    · refine pairwise_append.mpr
        ⟨sorted_multiples hviewport _, pairwise_singleton _ _, fun offset hin last hlast => ?_⟩
      rw [mem_singleton.mp hlast]
      exact hbelow' offset hin
    · refine (near_multiples viewport m).append (List.IsChain.singleton _) ?_
      intro offset hoffset last hlast
      rw [multiples_succ, getLast?_concat, Option.mem_some_iff] at hoffset
      rw [head?_cons, Option.mem_some_iff] at hlast
      subst hoffset hlast
      push_cast at hreach
      linarith

/-- After each offset but the last comes one that is no further than the viewport. -/
theorem Spans.next {document : ℚ} (h : Spans viewport document offsets) {offset : ℚ}
    (hin : offset ∈ offsets) :
    offset = max (document - viewport) 0 ∨
      ∃ next ∈ offsets, offset < next ∧ next ≤ offset + viewport := by
  obtain ⟨-, hlast, hsorted, hnear⟩ := h
  generalize max (document - viewport) 0 = maxScroll at hlast
  induction offsets with
  | nil => cases hin
  | cons first rest ih =>
    cases rest with
    | nil =>
      refine .inl ?_
      rw [mem_singleton.mp hin]
      exact Option.some.inj hlast
    | cons second rest =>
      obtain ⟨hfirst, hsorted⟩ := pairwise_cons.mp hsorted
      obtain ⟨hstep, hnear⟩ := isChain_cons_cons.mp hnear
      obtain rfl | hin := mem_cons.mp hin
      · refine .inr ⟨second, mem_cons_of_mem _ mem_cons_self,
          hfirst second mem_cons_self, by linarith⟩
      · rw [getLast?_cons_cons] at hlast
        obtain hend | ⟨next, hnext, hbetween⟩ := ih hin hsorted hnear hlast
        · exact .inl hend
        · exact .inr ⟨next, mem_cons_of_mem _ hnext, hbetween⟩

theorem Spans.nonneg {document : ℚ} (h : Spans viewport document offsets) {offset : ℚ}
    (hin : offset ∈ offsets) : 0 ≤ offset := by
  obtain ⟨hfirst, -, hsorted, -⟩ := h
  cases offsets with
  | nil => cases hin
  | cons first rest =>
    cases hfirst
    obtain rfl | hin := mem_cons.mp hin
    · exact le_rfl
    · exact ((pairwise_cons.mp hsorted).1 offset hin).le

end

/-! ## What a stitch writes -/

def row (image : RgbaImage) (r : Nat) : List UInt8 := rowAt (image.width * 4) image.data r

section
variable {tile data : List UInt8} {rowBytes top height tileHeight : Nat}

theorem checkedMul_ok {a b : Nat} (h : a * b ≤ usizeMax) : checkedMul a b = .ok (a * b) := by
  rw [checkedMul, rejectIf, if_neg h.not_gt]
  rfl

theorem checkedAdd_ok {bound a b : Nat} (h : a + b ≤ bound) :
    checkedAdd bound a b = .ok (a + b) := by
  rw [checkedAdd, rejectIf, if_neg h.not_gt]
  rfl

theorem slice_ok {first n : Nat} (h : first + n ≤ data.length) :
    slice data first (first + n) = some ((data.drop first).take n) := by
  rw [slice, if_pos ⟨Nat.le_add_right _ _, h⟩, Nat.add_sub_cancel_left]

/-- A row is copied. -/
theorem copyRow_ok {source : Nat} (htile : tile.length = tileHeight * rowBytes)
    (hdata : data.length = height * rowBytes) (hsource : source < tileHeight)
    (hplace : top + source < height) (htileBytes : tile.length ≤ u32Max)
    (hbytes : data.length ≤ u32Max) (hheight : height ≤ u32Max) :
    copyRow tile rowBytes top source data =
      .ok (overwrite data ((top + source) * rowBytes) (rowAt rowBytes tile source)) := by
  have hu : u32Max ≤ usizeMax := by decide
  have hsourceEnd : source * rowBytes + rowBytes ≤ tile.length := by
    rw [htile, ← Nat.succ_mul]
    exact Nat.mul_le_mul_right _ hsource
  have hplaceEnd : (top + source) * rowBytes + rowBytes ≤ data.length := by
    rw [hdata, ← Nat.succ_mul]
    exact Nat.mul_le_mul_right _ hplace
  have hfits {n : Nat} (hle : n ≤ u32Max) : n ≤ usizeMax := hle.trans hu
  have hsourceMul := checkedMul_ok (hfits ((Nat.le_of_add_right_le hsourceEnd).trans htileBytes))
  have hsourceAdd := checkedAdd_ok (hfits (hsourceEnd.trans htileBytes))
  have hplaceMul := checkedMul_ok (hfits ((Nat.le_of_add_right_le hplaceEnd).trans hbytes))
  have hplaceAdd := checkedAdd_ok (hfits (hplaceEnd.trans hbytes))
  have hrow := checkedAdd_ok (hplace.le.trans hheight)
  simp only [copyRow, hsourceMul, hsourceAdd, hplaceMul, hplaceAdd, hrow, slice_ok hsourceEnd,
    slice_ok hplaceEnd, bind, Except.bind, okOr]
  rfl

/-- So are all the rows of a loop. -/
theorem copyRows_ok (htile : tile.length = tileHeight * rowBytes)
    (htileBytes : tile.length ≤ u32Max) (hheight : height ≤ u32Max) {count first : Nat}
    (hcount : first + count ≤ tileHeight) (hplace : top + first + count ≤ height)
    (hdata : data.length = height * rowBytes) (hbytes : data.length ≤ u32Max) :
    ∃ data', copyRows tile rowBytes top count first data = (.ok (), data') ∧
      data'.length = data.length ∧
      ∀ r, rowAt rowBytes data' r =
        if top + first ≤ r ∧ r < top + first + count then rowAt rowBytes tile (r - top)
        else rowAt rowBytes data r := by
  induction count generalizing first data with
  | zero =>
    refine ⟨data, rfl, rfl, fun r => ?_⟩
    rw [if_neg (by omega)]
  | succ count ih =>
    have hrow : (rowAt rowBytes tile first).length = rowBytes := by
      have hend : (first + 1) * rowBytes ≤ tile.length := by
        rw [htile]
        exact Nat.mul_le_mul_right _ (by omega)
      rw [Nat.succ_mul] at hend
      rw [rowAt, length_take_of_le]
      rw [length_drop]
      omega
    have hend : (top + first + 1) * rowBytes ≤ data.length := by
      rw [hdata]
      exact Nat.mul_le_mul_right _ (by omega)
    have hlength : (overwrite data ((top + first) * rowBytes) (rowAt rowBytes tile first)).length =
        data.length := by
      refine length_overwrite ?_
      rw [hrow, ← Nat.succ_mul]
      exact hend
    have hcount' : first + 1 + count ≤ tileHeight := by omega
    obtain ⟨data', hrest, hlength', hrows⟩ := ih hcount' (by omega) (hlength.trans hdata)
      (hlength.le.trans hbytes)
    refine ⟨data', ?_, hlength'.trans hlength, fun r => ?_⟩
    · rw [copyRows, copyRow_ok htile hdata (by omega) (by omega) htileBytes hbytes hheight]
      exact hrest
    rw [hrows r]
    by_cases hhere : r = top + first
    · rw [if_neg (by omega), if_pos (by omega), hhere, rowAt_overwrite_self hrow hend,
        Nat.add_sub_cancel_left]
    · rw [rowAt_overwrite_of_ne hrow hend hhere]
      exact if_congr (by omega) rfl rfl

/-- The row that the tile of an offset starts at. -/
def topPx (viewport : ℚ) (height : Nat) (offset : ℚ) : Nat :=
  (roundAway (offset * (height / viewport))).toNat

variable {viewport offset : ℚ} {output image : RgbaImage}

theorem placeTile_ok (houtput : output.Valid) (himage : image.Valid)
    (hwidth : output.width = image.width) (hviewport : 0 < viewport) (hoffset : 0 ≤ offset)
    (htop : topPx viewport image.height offset < output.height) :
    placeTile output viewport offset image =
      .ok (topPx viewport image.height offset, output.width * 4) := by
  have hscale : (0 : ℚ) < image.height / viewport :=
    div_pos (Nat.cast_pos.mpr himage.height) hviewport
  have hround := roundAway_nonneg (mul_nonneg hoffset hscale.le)
  have hheight := houtput.height_le
  have hbytes : output.width * 4 ≤ usizeMax := houtput.width_le.trans (by decide)
  rw [topPx] at htop ⊢
  refine bind_eq_ok.mpr ⟨(), ?_, bind_eq_ok.mpr ⟨(), ?_, ?_⟩⟩
  · exact mapError_eq_ok.mpr (RgbaImage.validate_eq_ok.mpr houtput)
  · exact mapError_eq_ok.mpr (RgbaImage.validate_eq_ok.mpr himage)
  refine rejectIf_bind_eq_ok.mpr ⟨not_not.mpr hwidth, rejectIf_bind_eq_ok.mpr ⟨?_, ?_⟩⟩
  · exact not_or.mpr ⟨hviewport.not_ge, hoffset.not_gt⟩
  dsimp only
  refine rejectIf_bind_eq_ok.mpr ⟨not_or.mpr ⟨hscale.not_ge, hround.not_gt⟩,
    rejectIf_bind_eq_ok.mpr ⟨?_, rejectIf_bind_eq_ok.mpr ⟨?_, ?_⟩⟩⟩
  · omega
  · omega
  · rw [checkedMul_ok hbytes]
    rfl

/-- **One tile.**  Its rows are in the output from its top on, and the others are unchanged. -/
theorem stitch_ok (houtput : output.Valid) (himage : image.Valid)
    (hwidth : output.width = image.width) (hviewport : 0 < viewport) (hoffset : 0 ≤ offset)
    (htop : topPx viewport image.height offset < output.height) :
    ∃ output', stitchFullPageTile output viewport offset image = (.ok (), output') ∧
      output'.Valid ∧ output'.width = output.width ∧ output'.height = output.height ∧
      ∀ r < output.height, row output' r =
        if topPx viewport image.height offset ≤ r ∧
            r < topPx viewport image.height offset + image.height
        then row image (r - topPx viewport image.height offset) else row output r := by
  have himageData : image.data.length = image.height * (output.width * 4) := by
    rw [himage.length, hwidth]
    ring
  have houtputData : output.data.length = output.height * (output.width * 4) := by
    rw [houtput.length]
    ring
  have hcount : 0 + min image.height (output.height - topPx viewport image.height offset) ≤
      image.height := by omega
  have hplace : topPx viewport image.height offset + 0 +
      min image.height (output.height - topPx viewport image.height offset) ≤ output.height := by
    omega
  obtain ⟨data, hcopy, hlength, hrows⟩ := copyRows_ok himageData himage.bound
    houtput.height_le hcount hplace houtputData houtput.bound
  refine ⟨{ output with data }, ?_, ?_, rfl, rfl, fun r hr => ?_⟩
  · rw [stitchFullPageTile, placeTile_ok houtput himage hwidth hviewport hoffset htop]
    dsimp only
    rw [hcopy]
  · exact ⟨houtput.width, houtput.height, hlength.trans houtput.length,
      hlength.le.trans houtput.bound⟩
  · rw [row, hrows r, row, row, ← hwidth]
    exact if_congr (by omega) rfl rfl

end

/-! ## The whole document -/

/-- The tile of an offset has a row at row `r` of the output. -/
def Covers (viewport : ℚ) (height : Nat) (offset : ℚ) (r : Nat) : Prop :=
  topPx viewport height offset ≤ r ∧ r < topPx viewport height offset + height

section
variable {viewport : ℚ} {tile : ℚ → RgbaImage} {offsets : List ℚ} {output : RgbaImage}
  {height : Nat}

/-- **Tiles in order.**  A row is of the last tile that covers it. -/
theorem stitchAll_ok (tile : ℚ → RgbaImage) (hviewport : 0 < viewport)
    (hsorted : offsets.Pairwise (· < ·)) (houtput : output.Valid)
    (htiles : ∀ offset ∈ offsets, (tile offset).Valid ∧ (tile offset).width = output.width ∧
      (tile offset).height = height)
    (hplaces : ∀ offset ∈ offsets, 0 ≤ offset ∧ topPx viewport height offset < output.height) :
    ∃ output', stitchAll viewport tile offsets output = (.ok (), output') ∧
      output'.Valid ∧ output'.width = output.width ∧ output'.height = output.height ∧
      ∀ r < output.height,
        ((∀ offset ∈ offsets, ¬ Covers viewport height offset r) →
          row output' r = row output r) ∧
        ∀ offset ∈ offsets, Covers viewport height offset r →
          (∀ later ∈ offsets, offset < later → ¬ Covers viewport height later r) →
          row output' r = row (tile offset) (r - topPx viewport height offset) := by
  induction offsets generalizing output with
  | nil =>
    refine ⟨output, rfl, houtput, rfl, rfl, fun r _ => ⟨fun _ => rfl, fun offset hin => ?_⟩⟩
    cases hin
  | cons first rest ih =>
    obtain ⟨hafter, hsorted⟩ := pairwise_cons.mp hsorted
    obtain ⟨htile, hwidth, hheight⟩ := htiles first mem_cons_self
    obtain ⟨hnonneg, htop⟩ := hplaces first mem_cons_self
    obtain ⟨output₁, hstitch, hvalid₁, hwidth₁, hheight₁, hrows₁⟩ := stitch_ok houtput htile
      hwidth.symm hviewport hnonneg (by rw [hheight]; exact htop)
    rw [hheight] at hrows₁
    obtain ⟨output', hrest, hvalid, hwidth', hheight', hrows⟩ := ih hsorted hvalid₁
      (fun offset hin => by
        rw [hwidth₁]
        exact htiles offset (mem_cons_of_mem _ hin))
      (fun offset hin => by
        rw [hheight₁]
        exact hplaces offset (mem_cons_of_mem _ hin))
    refine ⟨output', ?_, hvalid, hwidth'.trans hwidth₁, hheight'.trans hheight₁, ?_⟩
    · rw [stitchAll, hstitch]
      exact hrest
    intro r hr
    obtain ⟨hkept, hcovered⟩ := hrows r (hheight₁.symm ▸ hr)
    refine ⟨fun hnone => ?_, fun offset hin hcovers hlast => ?_⟩
    · rw [hkept fun offset hin => hnone offset (mem_cons_of_mem _ hin), hrows₁ r hr]
      exact if_neg (hnone first mem_cons_self)
    · obtain rfl | hin := mem_cons.mp hin
      · rw [hkept fun later hlater => hlast later (mem_cons_of_mem _ hlater)
          (hafter later hlater), hrows₁ r hr]
        exact if_pos hcovers
      · exact hcovered offset hin hcovers fun later hlater =>
          hlast later (mem_cons_of_mem _ hlater)

section
variable {offset : ℚ}

theorem scale_nonneg (hviewport : 0 < viewport) (height : Nat) : (0 : ℚ) ≤ height / viewport :=
  div_nonneg (Nat.cast_nonneg _) hviewport.le

theorem topPx_zero (viewport : ℚ) (height : Nat) : topPx viewport height 0 = 0 := by
  rw [topPx, zero_mul, roundAway_zero]
  rfl

theorem topPx_mono (hviewport : 0 < viewport) (hoffset : 0 ≤ offset) {next : ℚ}
    (hle : offset ≤ next) : topPx viewport height offset ≤ topPx viewport height next := by
  have hscale := scale_nonneg hviewport height
  exact Int.toNat_le_toNat (roundAway_mono (mul_nonneg hoffset hscale)
    (mul_le_mul_of_nonneg_right hle hscale))

/-- A viewport further down is the tile's height further down. -/
theorem topPx_add_viewport (hviewport : 0 < viewport) (hoffset : 0 ≤ offset) :
    topPx viewport height (offset + viewport) = topPx viewport height offset + height := by
  have hscaled := mul_nonneg hoffset (scale_nonneg hviewport height)
  have hsum : (offset + viewport) * (height / viewport) =
      offset * (height / viewport) + (height : Nat) := by
    rw [add_mul, mul_div_cancel₀ _ hviewport.ne']
  have hround := roundAway_nonneg hscaled
  rw [topPx, topPx, hsum, roundAway_add hscaled]
  omega

/-- The last tile ends where the output ends, or past it if the document fits one tile. -/
theorem topPx_end {document : ℚ} (hviewport : 0 < viewport) (hdocument : 0 < document)
    (hheight : 0 < height) (hpositive : 0 < topPx viewport height document) :
    topPx viewport height (max (document - viewport) 0) < topPx viewport height document ∧
      topPx viewport height document ≤
        topPx viewport height (max (document - viewport) 0) + height := by
  obtain hfits | hlong := le_total document viewport
  · rw [max_eq_right (by linarith), topPx_zero]
    refine ⟨hpositive, ?_⟩
    calc topPx viewport height document
        ≤ topPx viewport height (0 + viewport) :=
          topPx_mono hviewport hdocument.le (by linarith)
      _ = 0 + height := by rw [topPx_add_viewport hviewport le_rfl, topPx_zero]
  · have hend : 0 ≤ document - viewport := by linarith
    have hsum : topPx viewport height document =
        topPx viewport height (document - viewport) + height := by
      rw [← topPx_add_viewport hviewport hend, sub_add_cancel]
    rw [max_eq_left hend, hsum]
    exact ⟨Nat.lt_add_of_pos_right hheight, le_rfl⟩

end

/-- The last offset whose top is not below a row. -/
theorem exists_last (viewport : ℚ) (height r : Nat) (hsorted : offsets.Pairwise (· < ·)) (hfirst : 0 ∈ offsets) :
    ∃ offset ∈ offsets, topPx viewport height offset ≤ r ∧
      ∀ later ∈ offsets, offset < later → r < topPx viewport height later := by
  have hstart : (0 : ℚ) ∈ offsets.filter fun offset =>
      decide (topPx viewport height offset ≤ r) := by
    refine mem_filter.mpr ⟨hfirst, ?_⟩
    rw [topPx_zero]
    exact decide_eq_true (Nat.zero_le r)
  have hmem {offset : ℚ} : offset ∈ offsets.filter (fun offset =>
      decide (topPx viewport height offset ≤ r)) ↔
        offset ∈ offsets ∧ topPx viewport height offset ≤ r := by
    rw [mem_filter, decide_eq_true_iff]
  have hsorted' := hsorted.filter fun offset => decide (topPx viewport height offset ≤ r)
  generalize offsets.filter (fun offset => decide (topPx viewport height offset ≤ r)) = reached
    at hstart hmem hsorted'
  obtain rfl | ⟨before, offset, rfl⟩ := eq_nil_or_concat reached
  · cases hstart
  rw [concat_eq_append] at hmem hsorted'
  obtain ⟨hin, htop⟩ := hmem.mp (mem_append_right before (mem_singleton_self offset))
  refine ⟨offset, hin, htop, fun later hlater hlt => Nat.lt_of_not_le fun hle => ?_⟩
  obtain hbefore | hsame := mem_append.mp (hmem.mpr ⟨hlater, hle⟩)
  · have := (pairwise_append.mp hsorted').2.2 later hbefore offset
      (mem_singleton_self offset)
    exact lt_asymm hlt this
  · exact hlt.ne' (mem_singleton.mp hsame)

/-- What a plan that is accepted is. -/
theorem planFullPage_ok {documentWidth document viewportWidth scroll : ℚ}
    {policy : FullPagePolicy} {plan : FullPagePlan}
    (h : planFullPage documentWidth document viewportWidth viewport scroll policy = .ok plan) :
    plan.documentCssHeight = document ∧ plan.viewportCssHeight = viewport ∧ 0 < document ∧
      0 < viewport ∧ Spans viewport document plan.scrollOffsetsY := by
  obtain ⟨_, -, h⟩ := bind_eq_ok.mp h
  obtain ⟨hgeometry, h⟩ := rejectIf_bind_eq_ok.mp h
  push Not at hgeometry
  obtain ⟨-, hdocument, -, hviewport, -⟩ := hgeometry
  obtain ⟨-, h⟩ := rejectIf_bind_eq_ok.mp h
  obtain ⟨-, h⟩ := rejectIf_bind_eq_ok.mp h
  obtain ⟨-, h⟩ := rejectIf_bind_eq_ok.mp h
  obtain ⟨offsets, hoffsets, h⟩ := bind_eq_ok.mp h
  obtain ⟨-, h⟩ := rejectIf_bind_eq_ok.mp h
  obtain ⟨-, h⟩ := rejectIf_bind_eq_ok.mp h
  cases h
  exact ⟨rfl, rfl, hdocument, hviewport, spans_of_plan hviewport hoffsets⟩

/-- What a projection that is accepted is. -/
theorem projectFullPageOutput_ok {plan : FullPagePlan} {width : Nat} {policy : FullPagePolicy}
    {geometry : FullPageOutputGeometry}
    (h : projectFullPageOutput plan width height policy = .ok geometry) :
    geometry.pixelWidth = width ∧ 0 < height ∧ 0 < geometry.pixelHeight ∧
      geometry.pixelHeight = topPx plan.viewportCssHeight height plan.documentCssHeight := by
  obtain ⟨_, -, h⟩ := bind_eq_ok.mp h
  obtain ⟨_, -, h⟩ := bind_eq_ok.mp h
  obtain ⟨hzero, h⟩ := rejectIf_bind_eq_ok.mp h
  push Not at hzero
  obtain ⟨-, h⟩ := rejectIf_bind_eq_ok.mp h
  obtain ⟨hprojected, h⟩ := rejectIf_bind_eq_ok.mp h
  obtain ⟨-, h⟩ := rejectIf_bind_eq_ok.mp h
  obtain ⟨-, h⟩ := rejectIf_bind_eq_ok.mp h
  obtain ⟨_, -, h⟩ := bind_eq_ok.mp h
  obtain ⟨_, -, h⟩ := bind_eq_ok.mp h
  obtain ⟨-, h⟩ := rejectIf_bind_eq_ok.mp h
  cases h
  refine ⟨rfl, Nat.pos_of_ne_zero hzero.2, ?_, rfl⟩
  dsimp only
  omega

/-- **The document is put together.**  A plan goes from the top to the end with no gap; its
tiles, stitched in order, fill the output, and each row is of the last tile that starts at
it or above. -/
theorem full_page_stitched {documentWidth document viewportWidth scroll : ℚ} {width : Nat}
    {policy : FullPagePolicy} {plan : FullPagePlan} {geometry : FullPageOutputGeometry}
    (hplan : planFullPage documentWidth document viewportWidth viewport scroll policy = .ok plan)
    (hproject : projectFullPageOutput plan width height policy = .ok geometry)
    (houtput : output.Valid)
    (hsize : output.width = geometry.pixelWidth ∧ output.height = geometry.pixelHeight)
    (htiles : ∀ offset ∈ plan.scrollOffsetsY, (tile offset).Valid ∧
      (tile offset).width = width ∧ (tile offset).height = height) :
    Spans viewport document plan.scrollOffsetsY ∧
    ∃ output', stitchAll viewport tile plan.scrollOffsetsY output = (.ok (), output') ∧
      output'.width = geometry.pixelWidth ∧ output'.height = geometry.pixelHeight ∧
      ∀ r < geometry.pixelHeight, ∃ offset ∈ plan.scrollOffsetsY,
        (topPx viewport height offset ≤ r ∧
          ∀ later ∈ plan.scrollOffsetsY, offset < later → r < topPx viewport height later) ∧
        r - topPx viewport height offset < height ∧
        row output' r = row (tile offset) (r - topPx viewport height offset) := by
  obtain ⟨hdocument, hviewport, hpositive, hviewportPos, hspans⟩ := planFullPage_ok hplan
  obtain ⟨hwidth, hheight, hprojected, htotal⟩ := projectFullPageOutput_ok hproject
  rw [hdocument, hviewport] at htotal
  obtain ⟨hlast, hreach⟩ := topPx_end hviewportPos hpositive hheight (htotal ▸ hprojected)
  rw [← htotal] at hlast hreach
  obtain ⟨houtputWidth, houtputHeight⟩ := hsize
  have hend {offset : ℚ} (hin : offset ∈ plan.scrollOffsetsY) :
      offset ≤ max (document - viewport) 0 := by
    obtain ⟨before, hsplit⟩ := getLast?_eq_some_iff.mp hspans.last
    have hsorted := hspans.sorted
    rw [hsplit] at hin hsorted
    obtain hin | hin := mem_append.mp hin
    · exact ((pairwise_append.mp hsorted).2.2 offset hin _ (mem_singleton_self _)).le
    · exact (mem_singleton.mp hin).le
  obtain ⟨output', hstitch, hvalid, hwidth', hheight', hrows⟩ := stitchAll_ok tile hviewportPos
    hspans.sorted houtput
    (fun offset hin => by
      rw [houtputWidth, hwidth]
      exact htiles offset hin)
    (fun offset hin => by
      rw [houtputHeight]
      exact ⟨hspans.nonneg hin,
        (topPx_mono hviewportPos (hspans.nonneg hin) (hend hin)).trans_lt hlast⟩)
  refine ⟨hspans, output', hstitch, hwidth'.trans houtputWidth, hheight'.trans houtputHeight, ?_⟩
  intro r hr
  have hfirst : (0 : ℚ) ∈ plan.scrollOffsetsY := mem_of_head? hspans.first
  obtain ⟨offset, hin, htop, hlater⟩ := exists_last viewport height r hspans.sorted hfirst
  have hcovered : r < topPx viewport height offset + height := by
    obtain heq | ⟨next, hnext, hlt, hnear⟩ := hspans.next hin
    · rw [heq]
      exact hr.trans_le hreach
    · have hnonneg := hspans.nonneg hin
      rw [← topPx_add_viewport hviewportPos hnonneg]
      exact (hlater next hnext hlt).trans_le
        (topPx_mono hviewportPos (hnonneg.trans hlt.le) hnear)
  refine ⟨offset, hin, ⟨htop, hlater⟩, by omega, ?_⟩
  refine (hrows r (houtputHeight ▸ hr)).2 offset hin ⟨htop, hcovered⟩ ?_
  intro later hin' hlt hcovers
  exact absurd hcovers.1 (hlater later hin' hlt).not_ge

end

def samplePolicy : FullPagePolicy where
  maxTiles := 32
  maxDocumentCssHeight := 50000
  maxOutputRgbaBytes := 8589934592
  maxOutputPixelHeight := 32768

/-- A document of two and a half viewports, three rows a tile. -/
theorem full_page_stitched_sample :
    ∃ output', stitchAll 10 (fun _ => ⟨1, 3, List.replicate 12 1⟩) [0, 10, 15]
        ⟨1, 8, List.replicate 32 0⟩ = (.ok (), output') ∧ output'.width = 1 ∧
      output'.height = 8 ∧ ∀ r < 8, ∃ offset ∈ [0, 10, 15],
        (topPx 10 3 offset ≤ r ∧ ∀ later ∈ [0, 10, 15], offset < later → r < topPx 10 3 later) ∧
        r - topPx 10 3 offset < 3 ∧
        row output' r = row ⟨1, 3, List.replicate 12 1⟩ (r - topPx 10 3 offset) := by
  have hplan : planFullPage 4 25 4 10 3 samplePolicy = .ok ⟨4, 25, 4, 10, [0, 10, 15]⟩ := by
    decide +kernel
  have hproject : projectFullPageOutput ⟨4, 25, 4, 10, [0, 10, 15]⟩ 1 3 samplePolicy =
      .ok ⟨1, 8, 32⟩ := by decide +kernel
  have houtput : RgbaImage.Valid ⟨1, 8, List.replicate 32 0⟩ :=
    ⟨by decide, by decide, by decide, by decide⟩
  have htile : RgbaImage.Valid ⟨1, 3, List.replicate 12 1⟩ :=
    ⟨by decide, by decide, by decide, by decide⟩
  exact (full_page_stitched hplan hproject houtput ⟨rfl, rfl⟩ fun _ _ => ⟨htile, rfl, rfl⟩).2

/-- An image of four gigabytes is planned for and projected, and no image of that size is
valid. -/
theorem full_page_too_large :
    ∃ plan geometry output, ∃ tile : ℚ → RgbaImage,
      planFullPage 65536 16384 65536 16384 0 samplePolicy = .ok plan ∧
      projectFullPageOutput plan 65536 16384 samplePolicy = .ok geometry ∧
      (output.width = geometry.pixelWidth ∧ output.height = geometry.pixelHeight ∧
        output.data.length = output.width * output.height * 4) ∧
      (∀ offset, (tile offset).width = 65536 ∧ (tile offset).height = 16384 ∧
        (tile offset).data.length = (tile offset).width * (tile offset).height * 4) ∧
      (stitchAll 16384 tile plan.scrollOffsetsY output).1 = .error .invalidImage := by
  have hplan : planFullPage 65536 16384 65536 16384 0 samplePolicy =
      .ok ⟨65536, 16384, 65536, 16384, [0]⟩ := by decide +kernel
  have hproject : projectFullPageOutput ⟨65536, 16384, 65536, 16384, [0]⟩ 65536 16384
      samplePolicy = .ok ⟨65536, 16384, 4294967296⟩ := by decide +kernel
  obtain ⟨data, hdata⟩ : ∃ data : List UInt8, data.length = 65536 * 16384 * 4 :=
    ⟨List.replicate _ 0, length_replicate⟩
  have hinvalid : RgbaImage.validate ⟨65536, 16384, data⟩ = .error .invalidBuffer := by
    simp only [RgbaImage.validate, rejectIf]
    rw [if_neg (show ¬ u32Max < 65536 * 16384 by decide),
      if_pos (show u32Max < 65536 * 16384 * 4 by decide)]
    rfl
  refine ⟨_, _, ⟨65536, 16384, data⟩, fun _ => ⟨65536, 16384, data⟩, hplan, hproject,
    ⟨rfl, rfl, hdata⟩, fun _ => ⟨rfl, rfl, hdata⟩, ?_⟩
  simp only [stitchAll, stitchFullPageTile, placeTile, hinvalid, mapError_error, bind,
    Except.bind]

end FullPage
end Localview
