import Mathlib.Data.Rat.Floor
import Localview.VisualImage

/-! # Redacting masks

Rectangles in CSS pixels are made black in a frame: clamped to the viewport, scaled to the
pixels, widened to whole ones and filled.  All masks are checked before a pixel is touched.

A pixel is filled where what it stands for in CSS pixels reaches into a mask.  The CSS sizes
are exact.
-/
namespace Localview
open EarlyReturn RowBuffer List

/-- Opaque black. -/
def blackPixel : List UInt8 := [0, 0, 0, 255]

theorem length_blackPixel : blackPixel.length = 4 := rfl

/-- A mask in pixels. -/
structure DeviceRect where
  (left top right bottom : Nat)

def checkMasks : List Rect → Except VisualError Unit
  | [] => .ok ()
  | rect :: rects => do
    rejectIf (rect.width ≤ 0 ∨ rect.height ≤ 0) .invalidMaskGeometry
    checkMasks rects

section
variable (image : RgbaImage) (cssViewport : ℚ × ℚ)

/-- What is checked before the image is touched. -/
def checkRedaction (rects : List Rect) :
    Except VisualError Unit := do
  image.validate
  rejectIf (cssViewport.1 ≤ 0 ∨ cssViewport.2 ≤ 0) .invalidViewport
  checkMasks rects

/-- `.max(0.0).min(size)` -/
def clampCss (size place : ℚ) : ℚ := min (max place 0) size

/-- `.floor().max(0.0) as u32` -/
def floorPx (x : ℚ) : Nat := (max ⌊x⌋ 0).toNat

/-- `.ceil().min(size as f64) as u32` -/
def ceilPx (size : Nat) (x : ℚ) : Nat := (min ⌈x⌉ size).toNat

/-- A mask in pixels, unless the loop goes on to the next. -/
def deviceRect (rect : Rect) : Option DeviceRect :=
  let (cssWidth, cssHeight) := cssViewport
  let scaleX := image.width / cssWidth
  let scaleY := image.height / cssHeight
  let cssLeft := clampCss cssWidth rect.x
  let cssTop := clampCss cssHeight rect.y
  let cssRight := clampCss cssWidth (rect.x + rect.width)
  let cssBottom := clampCss cssHeight (rect.y + rect.height)
  if cssRight ≤ cssLeft ∨ cssBottom ≤ cssTop then none
  else
    let left := floorPx (cssLeft * scaleX)
    let top := floorPx (cssTop * scaleY)
    let right := ceilPx image.width (cssRight * scaleX)
    let bottom := ceilPx image.height (cssBottom * scaleY)
    if right ≤ left ∨ bottom ≤ top then none else some ⟨left, top, right, bottom⟩

/-- `copy_from_slice` of one black pixel. -/
def fillPixel (data : List UInt8) (pixel : Nat) : List UInt8 :=
  overwrite data (pixel * 4) blackPixel

/-- The two loops over the pixels of a mask. -/
def fillRect (imageWidth : Nat) (data : List UInt8) (rect : DeviceRect) : List UInt8 :=
  (pixelsIn imageWidth rect.left rect.top (rect.right - rect.left)
    (rect.bottom - rect.top)).foldl fillPixel data

/-- What is done with a mask in pixels; how many were applied is counted. -/
def applyDevice (imageWidth : Nat) (state : Nat × List UInt8) :
    Option DeviceRect → Nat × List UInt8
  | none => state
  | some device => (state.1 + 1, fillRect imageWidth state.2 device)

/-- One turn of the loop over the masks. -/
def applyMask (state : Nat × List UInt8) (rect : Rect) :
    Nat × List UInt8 :=
  applyDevice image.width state (deviceRect image cssViewport rect)

/-- The result, and the image as it is left. -/
def redactCssRects (rects : List Rect) :
    Except VisualError Nat × RgbaImage :=
  match checkRedaction image cssViewport rects with
  | .error e => (.error e, image)
  | .ok () =>
    let (applied, data) := rects.foldl (applyMask image cssViewport) (0, image.data)
    (.ok applied, { image with data := data })

end

/-! ## Which pixels a mask fills -/

/-- The rectangle has the point, and not on its border. -/
structure Rect.Inside (rect : Rect) (point : ℚ × ℚ) : Prop where
  left : rect.x < point.1
  right : point.1 < rect.x + rect.width
  top : rect.y < point.2
  bottom : point.2 < rect.y + rect.height

/-- A cell reaches into the interior of a mask. -/
def Rect.Enters (cell mask : Rect) : Prop := ∃ point, cell.Has point ∧ mask.Inside point

/-- A stretch reaches into the inside of another. -/
theorem exists_inside {a b l r : ℚ} (hab : a < b) (hlr : l < r) (hlb : l < b) (har : a < r) :
    ∃ t, (a ≤ t ∧ t ≤ b) ∧ l < t ∧ t < r := by
  obtain ⟨t, hlow, hhigh⟩ := exists_between (max_lt (lt_min hab har) (lt_min hlb hlr))
  rw [max_lt_iff] at hlow
  rw [lt_min_iff] at hhigh
  exact ⟨t, ⟨hlow.1.le, hhigh.1.le⟩, hlow.2, hhigh.2⟩

theorem Rect.enters_iff {cell mask : Rect} (hcw : 0 < cell.width) (hch : 0 < cell.height)
    (hmw : 0 < mask.width) (hmh : 0 < mask.height) :
    cell.Enters mask ↔
      (mask.x < cell.x + cell.width ∧ cell.x < mask.x + mask.width) ∧
      mask.y < cell.y + cell.height ∧ cell.y < mask.y + mask.height := by
  constructor
  · rintro ⟨point, ⟨hl, hr, ht, hb⟩, hl', hr', ht', hb'⟩
    exact ⟨⟨hl'.trans_le hr, hl.trans_lt hr'⟩, ht'.trans_le hb, ht.trans_lt hb'⟩
  · rintro ⟨⟨hl, hr⟩, ht, hb⟩
    obtain ⟨px, ⟨hpl, hpr⟩, hpl', hpr'⟩ := exists_inside (lt_add_of_pos_right _ hcw)
      (lt_add_of_pos_right _ hmw) hl hr
    obtain ⟨py, ⟨hpt, hpb⟩, hpt', hpb'⟩ := exists_inside (lt_add_of_pos_right _ hch)
      (lt_add_of_pos_right _ hmh) ht hb
    exact ⟨(px, py), ⟨hpl, hpr, hpt, hpb⟩, hpl', hpr', hpt', hpb'⟩

section
variable {css : ℚ} {size x : Nat}

theorem floorPx_le {lo : ℚ} : floorPx lo ≤ x ↔ lo < x + 1 := by
  rw [floorPx, Int.toNat_le, max_le_iff, Int.floor_le_iff]
  exact and_iff_left (Int.natCast_nonneg x)

theorem lt_ceilPx {hi : ℚ} : x < ceilPx size hi ↔ x < hi ∧ x < size := by
  rw [ceilPx, Int.lt_toNat, lt_min_iff, Int.lt_ceil, Int.cast_natCast, Nat.cast_lt]

theorem scaled_eq_div (hcss : 0 < css) (hsize : 0 < size) (place : ℚ) :
    place * (size / css) = place / (css / size) := by
  have hsize' : (size : ℚ) ≠ 0 := Nat.cast_ne_zero.mpr hsize.ne'
  field_simp

theorem clampCss_lt_iff {bound place : ℚ} (hpos : 0 < bound) (hle : bound ≤ css) :
    clampCss css place < bound ↔ place < bound := by
  rw [clampCss, min_lt_iff, max_lt_iff]
  constructor
  · rintro (hlt | hlt)
    · exact hlt.1
    · exact absurd hle (not_le.mpr hlt)
  · exact fun hlt => .inl ⟨hlt, hpos⟩

theorem lt_clampCss_iff {bound place : ℚ} (hnonneg : 0 ≤ bound) (hlt : bound < css) :
    bound < clampCss css place ↔ bound < place := by
  rw [clampCss, lt_min_iff, lt_max_iff]
  constructor
  · rintro ⟨hplace | hneg, -⟩
    · exact hplace
    · exact absurd hnonneg (not_le.mpr hneg)
  · exact fun hplace => ⟨.inl hplace, hlt⟩

/-- Along one side: the pixels from the left border on, and not beyond the right. -/
theorem covered_iff (hcss : 0 < css) (hx : x < size) {lo hi : ℚ} (hlt : lo < hi) :
    (¬ clampCss css hi ≤ clampCss css lo ∧ floorPx (clampCss css lo * (size / css)) ≤ x ∧
        x < ceilPx size (clampCss css hi * (size / css))) ↔
      lo < x * (css / size) + css / size ∧ x * (css / size) < hi := by
  have hsize : 0 < size := Nat.zero_lt_of_lt hx
  have hunit : 0 < css / size := div_pos hcss (Nat.cast_pos.mpr hsize)
  have hsizeQ : (0 : ℚ) < size := Nat.cast_pos.mpr hsize
  have hstart : 0 ≤ x * (css / size) := mul_nonneg (Nat.cast_nonneg x) hunit.le
  have hwhole : size * (css / size) = css := mul_div_cancel₀ css hsizeQ.ne'
  have hend : x * (css / size) + css / size ≤ css := by
    have hle : (x : ℚ) + 1 ≤ size := by exact_mod_cast hx
    calc x * (css / size) + css / size = (x + 1) * (css / size) := by rw [add_mul, one_mul]
      _ ≤ size * (css / size) := mul_le_mul_of_nonneg_right hle hunit.le
      _ = css := hwhole
  rw [floorPx_le, lt_ceilPx, scaled_eq_div hcss hsize, scaled_eq_div hcss hsize,
    div_lt_iff₀ hunit, lt_div_iff₀ hunit, add_mul, one_mul,
    clampCss_lt_iff (add_pos_of_nonneg_of_pos hstart hunit) hend,
    lt_clampCss_iff hstart ((lt_add_of_pos_right _ hunit).trans_le hend)]
  constructor
  · exact fun h => ⟨h.2.1, h.2.2.1⟩
  · rintro ⟨hlo, hhi⟩
    refine ⟨not_le.mpr (lt_min ?_ ?_), hlo, hhi, hx⟩
    · -- the mask ends beyond the border, so it is not clamped to nothing
      have hpos : 0 < hi := hstart.trans_lt hhi
      exact (min_le_left _ _).trans_lt (lt_max_of_lt_left (max_lt hlt hpos))
    · have hlow := (clampCss_lt_iff (add_pos_of_nonneg_of_pos hstart hunit) hend).mpr hlo
      exact hlow.trans_le hend

end

theorem checkMasks_eq_ok {rects : List Rect} :
    checkMasks rects = .ok () ↔ ∀ rect ∈ rects, 0 < rect.width ∧ 0 < rect.height := by
  induction rects with
  | nil => simp [checkMasks]
  | cons rect rects ih =>
    simp only [checkMasks, rejectIf_bind_eq_ok, ih, not_or, not_le, mem_cons,
      forall_eq_or_imp]

theorem checkRedaction_eq_ok {image : RgbaImage} {cssViewport : ℚ × ℚ} {rects : List Rect} :
    checkRedaction image cssViewport rects = .ok () ↔ image.Valid ∧
      (0 < cssViewport.1 ∧ 0 < cssViewport.2) ∧
      ∀ rect ∈ rects, 0 < rect.width ∧ 0 < rect.height := by
  simp only [checkRedaction, bind_eq_ok, rejectIf_eq_ok, checkMasks_eq_ok, not_or, not_le]
  constructor
  · rintro ⟨_, hvalid, _, hviewport, hrects⟩
    exact ⟨RgbaImage.validate_eq_ok.mp hvalid, hviewport, hrects⟩
  · rintro ⟨hvalid, hviewport, hrects⟩
    exact ⟨(), RgbaImage.validate_eq_ok.mpr hvalid, (), hviewport, hrects⟩

section
variable {image : RgbaImage} {cssViewport : ℚ × ℚ} {rect : Rect}

/-- A mask in pixels lies in the image. -/
theorem deviceRect_le {device : DeviceRect} (h : deviceRect image cssViewport rect = some device) :
    device.left + (device.right - device.left) ≤ image.width ∧
      device.top + (device.bottom - device.top) ≤ image.height := by
  have hceil : ∀ (size : Nat) (x : ℚ), ceilPx size x ≤ size := fun size x =>
    Int.toNat_le.mpr (min_le_right _ _)
  simp only [deviceRect] at h
  split_ifs at h with hempty hnone
  cases h
  have hright := hceil image.width
    (clampCss cssViewport.1 (rect.x + rect.width) * (image.width / cssViewport.1))
  have hbottom := hceil image.height
    (clampCss cssViewport.2 (rect.y + rect.height) * (image.height / cssViewport.2))
  simp only
  omega

/-- The pixels of a mask, if it comes to any. -/
def devicePixels (imageWidth : Nat) : Option DeviceRect → List Nat
  | none => []
  | some device => pixelsIn imageWidth device.left device.top (device.right - device.left)
      (device.bottom - device.top)

def maskPixels (image : RgbaImage) (cssViewport : ℚ × ℚ) (rect : Rect) : List Nat :=
  devicePixels image.width (deviceRect image cssViewport rect)

/-- **A mask fills the pixels that reach into it.** -/
theorem mem_maskPixels (hviewport : 0 < cssViewport.1 ∧ 0 < cssViewport.2)
    (hrect : 0 < rect.width ∧ 0 < rect.height) {x y : Nat} (hx : x < image.width)
    (hy : y < image.height) :
    y * image.width + x ∈ maskPixels image cssViewport rect ↔
      (image.cssCell cssViewport x y).Enters rect := by
  have hcell : 0 < (image.cssCell cssViewport x y).width ∧
      0 < (image.cssCell cssViewport x y).height :=
    ⟨div_pos hviewport.1 (Nat.cast_pos.mpr (Nat.zero_lt_of_lt hx)),
      div_pos hviewport.2 (Nat.cast_pos.mpr (Nat.zero_lt_of_lt hy))⟩
  rw [Rect.enters_iff hcell.1 hcell.2 hrect.1 hrect.2]
  simp only [RgbaImage.cssCell]
  rw [← covered_iff hviewport.1 hx (lt_add_of_pos_right rect.x hrect.1),
    ← covered_iff hviewport.2 hy (lt_add_of_pos_right rect.y hrect.2), maskPixels]
  cases hdevice : deviceRect image cssViewport rect with
  | none =>
    refine iff_of_false (not_mem_nil) ?_
    rintro ⟨⟨hwide, hleft, hright⟩, hhigh, htop, hbottom⟩
    simp only [deviceRect] at hdevice
    split_ifs at hdevice with hempty hnone
    · exact hempty.elim hwide hhigh
    · omega
  | some device =>
    have hin := deviceRect_le hdevice
    simp only [deviceRect] at hdevice
    split_ifs at hdevice with hempty hnone
    rw [not_or] at hempty
    rw [devicePixels, mem_pixelsIn hx hin.1]
    cases hdevice
    simp only
    rw [and_iff_right hempty.1, and_iff_right hempty.2]
    omega

end

/-! ## What the loops leave -/

section
variable (image : RgbaImage) (cssViewport : ℚ × ℚ) (rects : List Rect)

/-- The loop over the masks fills the pixels of each, and counts those with any. -/
theorem foldl_applyMask (applied : Nat) (data : List UInt8) :
    rects.foldl (applyMask image cssViewport) (applied, data) =
      (applied + rects.countP fun rect => (deviceRect image cssViewport rect).isSome,
        fillRows 4 blackPixel data (rects.flatMap (maskPixels image cssViewport))) := by
  induction rects generalizing applied data with
  | nil => rfl
  | cons rect rects ih =>
    rw [foldl_cons, flatMap_cons, fillRows, foldl_append, countP_cons,
      applyMask, maskPixels]
    cases deviceRect image cssViewport rect with
    | none => exact ih applied data
    | some device =>
      rw [applyDevice, ih, fillRect, devicePixels, Option.isSome_some, if_pos rfl, Nat.add_assoc,
        Nat.add_comm 1]
      rfl

def masked : RgbaImage :=
  { image with
    data := fillRows 4 blackPixel image.data (rects.flatMap (maskPixels image cssViewport)) }

theorem redactCssRects_eq : redactCssRects image cssViewport rects =
      match checkRedaction image cssViewport rects with
      | .error e => (.error e, image)
      | .ok () => (.ok (rects.countP fun rect => (deviceRect image cssViewport rect).isSome),
          masked image cssViewport rects) := by
  rw [redactCssRects]
  cases checkRedaction image cssViewport rects with
  | error e => rfl
  | ok u =>
    simp only [foldl_applyMask, Nat.zero_add]
    rfl

end

section
variable {image : RgbaImage} {cssViewport : ℚ × ℚ} {rects : List Rect}

theorem lt_of_mem_masks {pixel : Nat}
    (h : pixel ∈ rects.flatMap (maskPixels image cssViewport)) :
    pixel < image.height * image.width := by
  obtain ⟨rect, -, hpixel⟩ := mem_flatMap.mp h
  rw [maskPixels] at hpixel
  cases hdevice : deviceRect image cssViewport rect with
  | none =>
    rw [hdevice] at hpixel
    cases hpixel
  | some device =>
    rw [hdevice] at hpixel
    have hin := deviceRect_le hdevice
    rw [Nat.mul_comm]
    exact lt_of_mem_pixelsIn hin.1 hin.2 hpixel

theorem length_eq_rows (h : image.Valid) : image.data.length = image.height * image.width * 4 := by
  rw [h.length, Nat.mul_comm image.height]

theorem rowAt_masked (h : image.Valid) (q : Nat) :
    rowAt 4 (masked image cssViewport rects).data q =
      if q ∈ rects.flatMap (maskPixels image cssViewport) then blackPixel
      else rowAt 4 image.data q :=
  rowAt_fillRows length_blackPixel (length_eq_rows h) (fun _ => lt_of_mem_masks) q

theorem length_masked (h : image.Valid) :
    (masked image cssViewport rects).data.length = image.height * image.width * 4 :=
  length_fillRows length_blackPixel (length_eq_rows h) fun _ => lt_of_mem_masks

theorem valid_masked (h : image.Valid) : (masked image cssViewport rects).Valid := by
  have hlength : (masked image cssViewport rects).data.length = image.data.length := by
    rw [length_masked h, length_eq_rows h]
  exact ⟨h.width, h.height, hlength.trans h.length, hlength.symm ▸ h.bound⟩

/-- Images of the same size are equal where their pixels are. -/
theorem masked_ext {other : RgbaImage} (h : image.Valid)
    (hwidth : other.width = image.width) (hheight : other.height = image.height)
    (hlength : other.data.length = image.height * image.width * 4)
    (hrows : ∀ q, rowAt 4 (masked image cssViewport rects).data q = rowAt 4 other.data q) :
    masked image cssViewport rects = other := by
  obtain ⟨width, height, data⟩ := other
  subst hwidth hheight
  have hdata : (masked image cssViewport rects).data = data :=
    ext_rows (length_masked h) hlength fun q _ => hrows q
  rw [masked] at hdata ⊢
  exact congrArg (RgbaImage.mk image.width image.height) hdata

end

/-! ## Redaction -/

/-- Of an image of the same size, the pixels that reach into a mask are black and the others
as they were. -/
structure Redacted (image : RgbaImage) (cssViewport : ℚ × ℚ) (rects : List Rect)
    (image' : RgbaImage) : Prop where
  width : image'.width = image.width
  height : image'.height = image.height
  length : image'.data.length = image.data.length
  black : ∀ x y, x < image.width → y < image.height →
    (∃ rect ∈ rects, (image.cssCell cssViewport x y).Enters rect) →
    image'.pixel x y = blackPixel
  kept : ∀ x y, x < image.width → y < image.height →
    (∀ rect ∈ rects, ¬ (image.cssCell cssViewport x y).Enters rect) →
    image'.pixel x y = image.pixel x y

section
variable {image : RgbaImage} {cssViewport : ℚ × ℚ} {rects : List Rect}

theorem redacted_masked (h : checkRedaction image cssViewport rects = .ok ()) :
    Redacted image cssViewport rects (masked image cssViewport rects) := by
  obtain ⟨hvalid, hviewport, hrects⟩ := checkRedaction_eq_ok.mp h
  have hmem : ∀ x y, x < image.width → y < image.height →
      (y * image.width + x ∈ rects.flatMap (maskPixels image cssViewport) ↔
        ∃ rect ∈ rects, (image.cssCell cssViewport x y).Enters rect) := by
    intro x y hx hy
    rw [mem_flatMap]
    refine exists_congr fun rect => and_congr_right fun hrect => ?_
    exact mem_maskPixels hviewport (hrects rect hrect) hx hy
  refine ⟨rfl, rfl, by rw [length_masked hvalid, length_eq_rows hvalid],
    fun x y hx hy hmasked => ?_, fun x y hx hy hfree => ?_⟩
  · exact (rowAt_masked hvalid _).trans (if_pos ((hmem x y hx hy).mpr hmasked))
  · refine (rowAt_masked hvalid _).trans (if_neg fun hin => ?_)
    obtain ⟨rect, hrect, henters⟩ := (hmem x y hx hy).mp hin
    exact hfree rect hrect henters

theorem checkMasks_perm {rects' : List Rect} (h : rects'.Perm rects) :
    checkMasks rects' = checkMasks rects := by
  have hfail : ∀ rects : List Rect, checkMasks rects = .ok () ∨
      checkMasks rects = .error .invalidMaskGeometry := by
    intro rects
    induction rects with
    | nil => exact .inl rfl
    | cons rect rects ih =>
      by_cases hbad : rect.width ≤ 0 ∨ rect.height ≤ 0
      · exact .inr (by rw [checkMasks, rejectIf, if_pos hbad]; rfl)
      · rw [checkMasks, rejectIf, if_neg hbad]
        exact ih
  have hsame : checkMasks rects' = .ok () ↔ checkMasks rects = .ok () := by
    simp only [checkMasks_eq_ok, h.mem_iff]
  rcases hfail rects' with hok | herror
  · rw [hok, hsame.mp hok]
  · rcases hfail rects with hok | herror'
    · rw [hok, hsame.mpr hok]
    · rw [herror, herror']

theorem masked_perm {rects' : List Rect} (hvalid : image.Valid) (h : rects'.Perm rects) :
    masked image cssViewport rects' = masked image cssViewport rects := by
  refine masked_ext hvalid rfl rfl (length_masked hvalid) fun q => ?_
  rw [rowAt_masked hvalid, rowAt_masked hvalid]
  simp only [mem_flatMap, h.mem_iff]

theorem masked_masked (hvalid : image.Valid) :
    masked (masked image cssViewport rects) cssViewport rects =
      masked image cssViewport rects := by
  refine masked_ext (valid_masked hvalid) rfl rfl (length_masked hvalid) fun q => ?_
  rw [rowAt_masked (valid_masked hvalid), rowAt_masked hvalid]
  -- the masks come to the same pixels in an image of the same size
  change (if q ∈ rects.flatMap (maskPixels image cssViewport) then _ else _) = _
  split_ifs <;> rfl

end

/-- **Redaction is complete and atomic**: it fails and leaves the image as it was, or makes the
pixels that reach into a mask black and no others; whatever the order of the masks; and once is
as good as twice. -/
theorem redactCssRects_complete (image : RgbaImage) (cssViewport : ℚ × ℚ) (rects : List Rect) :
    ((∃ e, redactCssRects image cssViewport rects = (.error e, image)) ∨
      ∃ applied image', redactCssRects image cssViewport rects = (.ok applied, image') ∧
        Redacted image cssViewport rects image') ∧
    (∀ rects', rects'.Perm rects →
      redactCssRects image cssViewport rects' = redactCssRects image cssViewport rects) ∧
    redactCssRects (redactCssRects image cssViewport rects).2 cssViewport rects =
      redactCssRects image cssViewport rects := by
  cases hcheck : checkRedaction image cssViewport rects with
  | error e =>
    have hfails : redactCssRects image cssViewport rects = (.error e, image) := by
      rw [redactCssRects_eq, hcheck]
    refine ⟨.inl ⟨e, hfails⟩, fun rects' hperm => ?_, by rw [hfails, hfails]⟩
    rw [redactCssRects_eq, redactCssRects_eq, checkRedaction, checkMasks_perm hperm,
      ← checkRedaction, hcheck]
  | ok u =>
    have hvalid := (checkRedaction_eq_ok.mp hcheck).1
    have hdone : redactCssRects image cssViewport rects =
        (.ok (rects.countP fun rect => (deviceRect image cssViewport rect).isSome),
          masked image cssViewport rects) := by
      rw [redactCssRects_eq, hcheck]
    refine ⟨.inr ⟨_, _, hdone, redacted_masked hcheck⟩, fun rects' hperm => ?_, ?_⟩
    · have hcheck' : checkRedaction image cssViewport rects' = .ok () := by
        rw [checkRedaction, checkMasks_perm hperm, ← checkRedaction, hcheck]
      rw [hdone, redactCssRects_eq, hcheck', hperm.countP_eq, masked_perm hvalid hperm]
    · have hagain : checkRedaction (masked image cssViewport rects) cssViewport rects = .ok () := by
        obtain ⟨-, hviewport, hrects⟩ := checkRedaction_eq_ok.mp hcheck
        exact checkRedaction_eq_ok.mpr ⟨valid_masked hvalid, hviewport, hrects⟩
      rw [hdone, redactCssRects_eq, hagain, masked_masked hvalid]
      rfl

/-- Half a pixel of a mask is a whole one, and what lies outside the frame is not. -/
example : (redactCssRects ⟨2, 1, [1, 1, 1, 255, 2, 2, 2, 255]⟩ (1, 1)
    [⟨3 / 4, -1, 5, 3⟩]).2.data = [1, 1, 1, 255, 0, 0, 0, 255] := by decide +kernel

end Localview
