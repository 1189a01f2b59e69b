import Mathlib.Data.List.Sort
import Localview.FullPage

/-! # Contact sheets of responsive sweeps

The frames of a sweep are set one below the other with a gutter between them: first their
places are projected under the budgets, then the gutter colour is laid out and the rows of
each frame are copied over it.

What indexing, slicing and allocating panic on is an outcome of its own.
-/
namespace Localview
open EarlyReturn RowBuffer List
open FullPage (slice slice_ok)

/-- The largest `isize`, and the most bytes a `Vec` may have. -/
def isizeMax : Nat := 9223372036854775807

/-- A viewport in CSS pixels. -/
structure Viewport where
  (width height : Nat)
  deriving DecidableEq

/-- The viewports of a contact sheet. -/
inductive ResponsivePresetId
  | mobileS | mobile | tablet | desktop
  deriving DecidableEq

/-- The viewports to be shown. -/
structure ResponsiveSweepPlan where
  presets : List ResponsivePresetId
  viewports : List Viewport

/-- `[u8; 4]` -/
structure Rgba where
  (red green blue alpha : UInt8)

def Rgba.bytes (colour : Rgba) : List UInt8 :=
  [colour.red, colour.green, colour.blue, colour.alpha]

structure ContactSheetPolicy where
  (gutterPx maxRgbaBytes maxFramesRgbaBytes : Nat)
  gutterRgba : Rgba

/-- Where a frame stands on the sheet. -/
structure ContactSheetPlacement where
  preset : ResponsivePresetId
  viewport : Viewport
  (x y pixelWidth pixelHeight : Nat)
  deriving DecidableEq

/-- The sheet's size and its frames' places. -/
structure ContactSheetGeometry where
  (pixelWidth pixelHeight rgbaBytes : Nat)
  placements : List ContactSheetPlacement
  deriving DecidableEq

/-- A capture of one viewport. -/
structure ResponsiveFrame where
  preset : ResponsivePresetId
  viewport : Viewport
  (pixelWidth pixelHeight : Nat)
  rgba : List UInt8

/-- The frames on one image. -/
structure ResponsiveContactSheet where
  geometry : ContactSheetGeometry
  rgba : List UInt8
  deriving DecidableEq

/-- The failures of `ResponsiveError` that contact sheets have. -/
inductive ResponsiveError
  | frameCountMismatch
  | frameOrderMismatch
  | invalidPixelGeometry
  | pixelArithmeticOverflow
  | frameBufferLengthMismatch
  | frameMemoryBudgetExceeded
  | contactSheetMemoryBudgetExceeded
  deriving DecidableEq

/-- How a function ends that does not return a value. -/
inductive SheetStop
  | failed (e : ResponsiveError)
  | panicked
  deriving DecidableEq

/-! ## Projection -/

/-- A checked sum or product, below the largest number of its type. -/
def checkedTo (bound value : Nat) : Except ResponsiveError Nat := do
  rejectIf (bound < value) .pixelArithmeticOverflow
  return value

def checkedRgbaBytes (width height : Nat) : Except ResponsiveError Nat := do
  rejectIf (width = 0 ∨ height = 0) .invalidPixelGeometry
  let pixels ← checkedTo usizeMax (width * height)
  checkedTo usizeMax (pixels * 4)

/-- What the loop of `project_contact_sheet` keeps. -/
structure SheetProjection where
  (pixelWidth pixelHeight aggregateFrameBytes : Nat)
  placements : List ContactSheetPlacement

/-- The height with a gutter, but above the first frame. -/
def gutterAbove (policy : ContactSheetPolicy) (index pixelHeight : Nat) :
    Except ResponsiveError Nat :=
  if 0 < index then checkedTo u32Max (pixelHeight + policy.gutterPx) else .ok pixelHeight

/-- One turn of the loop, with a frame's size in pixels, its preset and its viewport. -/
def projectFrame (policy : ContactSheetPolicy) (index : Nat) (s : SheetProjection)
    (frame : (Nat × Nat) × ResponsivePresetId × Viewport) :
    Except ResponsiveError SheetProjection := do
  let frameBytes ← checkedRgbaBytes frame.1.1 frame.1.2
  let aggregate ← checkedTo usizeMax (s.aggregateFrameBytes + frameBytes)
  rejectIf (policy.maxFramesRgbaBytes < aggregate) .frameMemoryBudgetExceeded
  let y ← gutterAbove policy index s.pixelHeight
  let pixelHeight ← checkedTo u32Max (y + frame.1.2)
  return {
    pixelWidth := max s.pixelWidth frame.1.1
    pixelHeight := pixelHeight
    aggregateFrameBytes := aggregate
    placements := s.placements ++ [⟨frame.2.1, frame.2.2, 0, y, frame.1.1, frame.1.2⟩] }

def projectFrames (policy : ContactSheetPolicy) : Nat → SheetProjection →
    List ((Nat × Nat) × ResponsivePresetId × Viewport) → Except ResponsiveError SheetProjection
  | _, s, [] => .ok s
  | index, s, frame :: frames => do
    let s ← projectFrame policy index s frame
    projectFrames policy (index + 1) s frames

def projectContactSheet (plan : ResponsiveSweepPlan) (pixelDimensions : List (Nat × Nat))
    (policy : ContactSheetPolicy) : Except ResponsiveError ContactSheetGeometry := do
  rejectIf (pixelDimensions.length ≠ plan.presets.length ∨
    plan.viewports.length ≠ plan.presets.length) .frameCountMismatch
  let s ← projectFrames policy 0 ⟨0, 0, 0, []⟩
    (pixelDimensions.zip (plan.presets.zip plan.viewports))
  let rgbaBytes ← checkedRgbaBytes s.pixelWidth s.pixelHeight
  rejectIf (policy.maxRgbaBytes < rgbaBytes) .contactSheetMemoryBudgetExceeded
  return ⟨s.pixelWidth, s.pixelHeight, rgbaBytes, s.placements⟩

/-! ## Composition -/

open SheetStop

/-- A result of the functions that do not panic. -/
def orFailed {α : Type} (result : Except ResponsiveError α) : Except SheetStop α :=
  result.mapError failed

/-- The frames checked against the plan, and their sizes. -/
def frameDimensions (plan : ResponsiveSweepPlan) :
    Nat → List ResponsiveFrame → Except SheetStop (List (Nat × Nat))
  | _, [] => .ok []
  | index, frame :: frames => do
    let preset ← okOr plan.presets[index]? panicked
    rejectIf (frame.preset ≠ preset) (failed .frameOrderMismatch)
    let viewport ← okOr plan.viewports[index]? panicked
    rejectIf (frame.viewport ≠ viewport) (failed .frameOrderMismatch)
    let expected ← orFailed (checkedRgbaBytes frame.pixelWidth frame.pixelHeight)
    rejectIf (expected ≠ frame.rgba.length) (failed .frameBufferLengthMismatch)
    let dimensions ← frameDimensions plan (index + 1) frames
    return (frame.pixelWidth, frame.pixelHeight) :: dimensions

/-- `vec![0u8; bytes]` -/
def zeroed (bytes : Nat) : Except SheetStop (List UInt8) := do
  rejectIf (isizeMax < bytes) panicked
  return List.replicate bytes 0

/-- The gutter colour in each chunk of four bytes. -/
def layGutter (policy : ContactSheetPolicy) (rgba : List UInt8) : List UInt8 :=
  fillRows 4 policy.gutterRgba.bytes rgba (List.range (rgba.length / 4))

def copyFrameRow (frame : ResponsiveFrame) (placement : ContactSheetPlacement)
    (destinationStride sourceStride row : Nat) (rgba : List UInt8) :
    Except SheetStop (List UInt8) := do
  let sourceStart ← orFailed (checkedTo usizeMax (row * sourceStride))
  let sourceEnd ← orFailed (checkedTo usizeMax (sourceStart + sourceStride))
  let destinationRow ← orFailed (checkedTo usizeMax (placement.y + row))
  let destinationOffset ← orFailed (checkedTo usizeMax (destinationRow * destinationStride))
  let destinationStart ← orFailed (checkedTo usizeMax (destinationOffset + placement.x * 4))
  let destinationEnd ← orFailed (checkedTo usizeMax (destinationStart + sourceStride))
  let source ← okOr (slice frame.rgba sourceStart sourceEnd) panicked
  discard (okOr (slice rgba destinationStart destinationEnd) panicked)
  return overwrite rgba destinationStart source

/-- So many rows of a frame, from one on. -/
def copyFrameRows (frame : ResponsiveFrame) (placement : ContactSheetPlacement)
    (destinationStride sourceStride : Nat) :
    Nat → Nat → List UInt8 → Except SheetStop (List UInt8)
  | 0, _, rgba => .ok rgba
  | count + 1, row, rgba => do
    let rgba ← copyFrameRow frame placement destinationStride sourceStride row rgba
    copyFrameRows frame placement destinationStride sourceStride count (row + 1) rgba

def copyFrames (destinationStride : Nat) :
    List (ResponsiveFrame × ContactSheetPlacement) → List UInt8 → Except SheetStop (List UInt8)
  | [], rgba => .ok rgba
  | (frame, placement) :: rest, rgba => do
    let sourceStride ← orFailed (checkedTo usizeMax (frame.pixelWidth * 4))
    let rgba ← copyFrameRows frame placement destinationStride sourceStride frame.pixelHeight 0
      rgba
    copyFrames destinationStride rest rgba

def buildResponsiveContactSheet (plan : ResponsiveSweepPlan) (frames : List ResponsiveFrame)
    (policy : ContactSheetPolicy) : Except SheetStop ResponsiveContactSheet := do
  rejectIf (frames.length ≠ plan.presets.length) (failed .frameCountMismatch)
  let dimensions ← frameDimensions plan 0 frames
  let geometry ← orFailed (projectContactSheet plan dimensions policy)
  let rgba ← zeroed geometry.rgbaBytes
  let destinationStride ← orFailed (checkedTo usizeMax (geometry.pixelWidth * 4))
  let rgba ← copyFrames destinationStride (frames.zip geometry.placements)
    (layGutter policy rgba)
  return ⟨geometry, rgba⟩

/-! ## What the projection places -/

theorem checkedTo_eq_ok {bound value n : Nat} :
    checkedTo bound value = .ok n ↔ value ≤ bound ∧ value = n := by
  simp only [checkedTo, rejectIf_bind_eq_ok, not_lt, pure, Except.pure, Except.ok.injEq]

theorem checkedRgbaBytes_eq_ok {width height n : Nat} :
    checkedRgbaBytes width height = .ok n ↔
      (0 < width ∧ 0 < height) ∧ width * height * 4 ≤ usizeMax ∧ width * height * 4 = n := by
  simp only [checkedRgbaBytes, bind_eq_ok, rejectIf_eq_ok, checkedTo_eq_ok]
  constructor
  · rintro ⟨_, hsize, _, ⟨-, rfl⟩, hbytes⟩
    exact ⟨by omega, hbytes⟩
  · rintro ⟨hsize, hbytes, heq⟩
    exact ⟨(), by omega, _, ⟨by omega, rfl⟩, hbytes, heq⟩

/-- What a placement says of its frame. -/
def ContactSheetPlacement.frame (placement : ContactSheetPlacement) :
    (Nat × Nat) × ResponsivePresetId × Viewport :=
  ((placement.pixelWidth, placement.pixelHeight), placement.preset, placement.viewport)

/-- One placement ends where the other starts, or above. -/
def Above (upper lower : ContactSheetPlacement) : Prop :=
  upper.y + upper.pixelHeight ≤ lower.y

/-- The frames gone over are placed one below the other at the left border, in their order. -/
structure Placed (policy : ContactSheetPolicy)
    (frames : List ((Nat × Nat) × ResponsivePresetId × Viewport)) (s : SheetProjection) : Prop where
  order : s.placements.map ContactSheetPlacement.frame = frames
  left : ∀ placement ∈ s.placements, placement.x = 0
  wide : ∀ placement ∈ s.placements, placement.pixelWidth ≤ s.pixelWidth
  high : ∀ placement ∈ s.placements, placement.y + placement.pixelHeight ≤ s.pixelHeight
  above : s.placements.Pairwise Above
  bytes : s.aggregateFrameBytes = (frames.map fun frame => frame.1.1 * frame.1.2 * 4).sum
  budget : s.aggregateFrameBytes ≤ policy.maxFramesRgbaBytes

section
variable {policy : ContactSheetPolicy}
  {frames : List ((Nat × Nat) × ResponsivePresetId × Viewport)}

theorem le_gutterAbove {index height y : Nat} (h : gutterAbove policy index height = .ok y) :
    height ≤ y := by
  rw [gutterAbove] at h
  split_ifs at h
  · rw [checkedTo_eq_ok] at h
    omega
  · cases h
    exact Nat.le_refl _

/-- **One more frame** is placed below the others. -/
theorem Placed.projectFrame {index : Nat} {s s' : SheetProjection}
    {frame : (Nat × Nat) × ResponsivePresetId × Viewport} (hs : Placed policy frames s)
    (h : projectFrame policy index s frame = .ok s') : Placed policy (frames ++ [frame]) s' := by
  simp only [Localview.projectFrame, bind_eq_ok, checkedRgbaBytes_eq_ok, checkedTo_eq_ok,
    rejectIf_eq_ok, not_lt] at h
  obtain ⟨_, ⟨-, -, rfl⟩, _, ⟨-, rfl⟩, _, hbudget, y, hy, _, ⟨-, rfl⟩, hs'⟩ := h
  cases hs'
  have hbelow := le_gutterAbove hy
  refine ⟨?_, fun placement hmem => ?_, fun placement hmem => ?_, fun placement hmem => ?_, ?_, ?_,
    hbudget⟩
  · rw [map_append, hs.order]
    rfl
  · rcases mem_append.mp hmem with hmem | hmem
    · exact hs.left placement hmem
    · rw [mem_singleton.mp hmem]
  · rcases mem_append.mp hmem with hmem | hmem
    · exact Nat.le_trans (hs.wide placement hmem) (Nat.le_max_left _ _)
    · rw [mem_singleton.mp hmem]
      exact Nat.le_max_right _ _
  · rcases mem_append.mp hmem with hmem | hmem
    · have hhigh := hs.high placement hmem
      simp only
      omega
    · rw [mem_singleton.mp hmem]
  · refine pairwise_append.mpr ⟨hs.above, pairwise_singleton _ _, ?_⟩
    intro upper hupper lower hlower
    rw [mem_singleton.mp hlower]
    exact Nat.le_trans (hs.high upper hupper) hbelow
  · rw [map_append, sum_append, map_singleton, sum_singleton, ← hs.bytes]

theorem Placed.projectFrames {index : Nat} {s s' : SheetProjection}
    {rest : List ((Nat × Nat) × ResponsivePresetId × Viewport)} (hs : Placed policy frames s)
    (h : projectFrames policy index s rest = .ok s') : Placed policy (frames ++ rest) s' := by
  induction rest generalizing index s frames with
  | nil =>
    rw [Localview.projectFrames] at h
    cases h
    rwa [append_nil]
  | cons frame rest ih =>
    simp only [Localview.projectFrames, bind_eq_ok] at h
    obtain ⟨next, hnext, hrest⟩ := h
    rw [append_cons]
    exact ih (hs.projectFrame hnext) hrest

theorem placed_start : Placed policy [] ⟨0, 0, 0, []⟩ where
  order := rfl
  left _ h := nomatch h
  wide _ h := nomatch h
  high _ h := nomatch h
  above := List.Pairwise.nil
  bytes := rfl
  budget := Nat.zero_le _

end

/-- A projection that passed: the frames are placed, and the sheet's bytes are in the budget. -/
structure Projected (plan : ResponsiveSweepPlan) (pixelDimensions : List (Nat × Nat))
    (policy : ContactSheetPolicy) (geometry : ContactSheetGeometry) : Prop where
  count : pixelDimensions.length = plan.presets.length
  viewports : plan.viewports.length = plan.presets.length
  placed : ∃ aggregate, Placed policy
    (pixelDimensions.zip (plan.presets.zip plan.viewports))
    ⟨geometry.pixelWidth, geometry.pixelHeight, aggregate, geometry.placements⟩
  width : 0 < geometry.pixelWidth
  height : 0 < geometry.pixelHeight
  bytes : geometry.rgbaBytes = geometry.pixelWidth * geometry.pixelHeight * 4
  fits : geometry.rgbaBytes ≤ usizeMax
  budget : geometry.rgbaBytes ≤ policy.maxRgbaBytes

theorem projected_of_eq_ok {plan : ResponsiveSweepPlan} {pixelDimensions : List (Nat × Nat)}
    {policy : ContactSheetPolicy} {geometry : ContactSheetGeometry}
    (h : projectContactSheet plan pixelDimensions policy = .ok geometry) :
    Projected plan pixelDimensions policy geometry := by
  simp only [projectContactSheet, bind_eq_ok, rejectIf_eq_ok, checkedRgbaBytes_eq_ok, not_or,
    not_not, not_lt] at h
  obtain ⟨_, ⟨hcount, hviewports⟩, s, hs, _, ⟨⟨hwidth, hheight⟩, hfits, rfl⟩, _, hbudget,
    hgeometry⟩ := h
  cases hgeometry
  exact ⟨hcount, hviewports, ⟨s.aggregateFrameBytes, placed_start.projectFrames hs⟩, hwidth,
    hheight, rfl, hfits, hbudget⟩

/-! ## What the composition copies -/

theorem orFailed_eq_ok {α : Type} {result : Except ResponsiveError α} {a : α} :
    orFailed result = .ok a ↔ result = .ok a :=
  mapError_eq_ok

theorem orFailed_ne_panicked {α : Type} {result : Except ResponsiveError α} :
    orFailed result ≠ .error panicked := by
  intro h
  obtain ⟨_, -, hstop⟩ := mapError_eq_error.mp h
  cases hstop

theorem orFailed_checkedTo {bound value : Nat} (h : value ≤ bound) :
    orFailed (checkedTo bound value) = .ok value :=
  orFailed_eq_ok.mpr (checkedTo_eq_ok.mpr ⟨h, rfl⟩)

def ResponsiveFrame.size (frame : ResponsiveFrame) : Nat × Nat :=
  (frame.pixelWidth, frame.pixelHeight)

/-- A frame has the bytes its size asks for. -/
def ResponsiveFrame.Full (frame : ResponsiveFrame) : Prop :=
  frame.rgba.length = frame.pixelWidth * frame.pixelHeight * 4

section
variable {plan : ResponsiveSweepPlan} {index : Nat} {frames : List ResponsiveFrame}

/-- With a viewport for each preset and a preset for each frame no index is out of bounds. -/
theorem frameDimensions_ne_panicked (hviewports : plan.viewports.length = plan.presets.length)
    (hcount : index + frames.length ≤ plan.presets.length) :
    frameDimensions plan index frames ≠ .error panicked := by
  induction frames generalizing index with
  | nil => exact fun h => nomatch h
  | cons frame frames ih =>
    rw [length_cons] at hcount
    obtain ⟨preset, hpreset⟩ : ∃ preset, plan.presets[index]? = some preset :=
      ⟨_, getElem?_eq_getElem (by omega)⟩
    obtain ⟨viewport, hviewport⟩ : ∃ viewport, plan.viewports[index]? = some viewport :=
      ⟨_, getElem?_eq_getElem (by omega)⟩
    have hrest := @ih (index + 1) (by omega)
    intro h
    simp only [frameDimensions, hpreset, hviewport, okOr, bind_eq_error, rejectIf_eq_error,
      reduceCtorEq, and_false, false_or, orFailed_ne_panicked, hrest] at h
    obtain ⟨_, -, _, -, _, -, _, -, _, -, _, -, _, -, h⟩ := h
    cases h

theorem frameDimensions_spec {dimensions : List (Nat × Nat)}
    (h : frameDimensions plan index frames = .ok dimensions) :
    dimensions = frames.map ResponsiveFrame.size ∧ (∀ frame ∈ frames, frame.Full) ∧
      frames.map ResponsiveFrame.preset = (plan.presets.drop index).take frames.length ∧
      frames.map ResponsiveFrame.viewport = (plan.viewports.drop index).take frames.length := by
  induction frames generalizing index dimensions with
  | nil =>
    cases h
    exact ⟨rfl, (fun _ h => nomatch h), rfl, rfl⟩
  | cons frame frames ih =>
    simp only [frameDimensions, bind_eq_ok, okOr_eq_ok, rejectIf_eq_ok, orFailed_eq_ok,
      checkedRgbaBytes_eq_ok, not_not] at h
    obtain ⟨preset, hpreset, _, rfl, viewport, hviewport, _, rfl, _, ⟨-, -, rfl⟩, _, hlength,
      rest, hrest, hdimensions⟩ := h
    cases hdimensions
    obtain ⟨rfl, hfull, hpresets, hviewports⟩ := ih hrest
    obtain ⟨hlt, hpreset⟩ := List.getElem?_eq_some_iff.mp hpreset
    obtain ⟨hlt', hviewport⟩ := List.getElem?_eq_some_iff.mp hviewport
    refine ⟨rfl, fun f hf => ?_, ?_, ?_⟩
    · rcases mem_cons.mp hf with rfl | hf
      · exact hlength.symm
      · exact hfull f hf
    · rw [map_cons, length_cons, hpresets, drop_eq_getElem_cons hlt,
        take_succ_cons, hpreset]
    · rw [map_cons, length_cons, hviewports, drop_eq_getElem_cons hlt',
        take_succ_cons, hviewport]

end

theorem length_bytes (colour : Rgba) : colour.bytes.length = 4 := rfl

/-- The gutter covers the sheet. -/
theorem layGutter_spec {policy : ContactSheetPolicy} {rgba : List UInt8} {pixels : Nat}
    (h : rgba.length = pixels * 4) : (layGutter policy rgba).length = pixels * 4 ∧
      ∀ q, q < pixels → rowAt 4 (layGutter policy rgba) q = policy.gutterRgba.bytes := by
  have hchunks : rgba.length / 4 = pixels := by omega
  have hin : ∀ r ∈ List.range (rgba.length / 4), r < pixels := by
    intro r hr
    rw [hchunks] at hr
    exact mem_range.mp hr
  refine ⟨length_fillRows (length_bytes _) h hin, fun q hq => ?_⟩
  rw [layGutter, rowAt_fillRows (length_bytes _) h hin, hchunks, if_pos (mem_range.mpr hq)]

/-- The pixels of one row among those of all. -/
theorem in_row_iff {wide px py row narrow : Nat} (hpx : px < wide) (hnarrow : narrow ≤ wide) :
    row * wide ≤ py * wide + px ∧ py * wide + px < row * wide + narrow ↔
      py = row ∧ px < narrow := by
  constructor
  · rintro ⟨hlow, hhigh⟩
    rcases Nat.lt_trichotomy py row with hlt | rfl | hgt
    · have hmul := Nat.mul_le_mul_right wide (Nat.succ_le_of_lt hlt)
      rw [Nat.succ_mul] at hmul
      omega
    · exact ⟨rfl, by omega⟩
    · have hmul := Nat.mul_le_mul_right wide (Nat.succ_le_of_lt hgt)
      rw [Nat.succ_mul] at hmul
      omega
  · rintro ⟨rfl, hlt⟩
    omega

/-- A frame that fits its place. -/
structure Fits (frame : ResponsiveFrame) (placement : ContactSheetPlacement)
    (width height : Nat) : Prop where
  full : frame.Full
  shows : placement.frame = (frame.size, frame.preset, frame.viewport)
  left : placement.x = 0
  wide : frame.pixelWidth ≤ width
  high : placement.y + frame.pixelHeight ≤ height

section
variable {frame : ResponsiveFrame} {placement : ContactSheetPlacement} {width height row : Nat}
  {rgba : List UInt8}

/-- **A row of a frame is copied**, and no check fails. -/
theorem copyFrameRow_ok (hwidth : 0 < width) (hfits : Fits frame placement width height)
    (hlength : rgba.length = height * width * 4) (hbytes : rgba.length ≤ usizeMax)
    (hrow : row < frame.pixelHeight) :
    ∃ rgba', copyFrameRow frame placement (width * 4) (frame.pixelWidth * 4) row rgba =
        .ok rgba' ∧ rgba'.length = rgba.length ∧
      ∀ px py, px < width → rowAt 4 rgba' (py * width + px) =
        if py = placement.y + row ∧ px < frame.pixelWidth then
          rowAt 4 frame.rgba (row * frame.pixelWidth + px)
        else rowAt 4 rgba (py * width + px) := by
  obtain ⟨hfull, -, hleft, hwide, hhigh⟩ := hfits
  have hsource : (row * frame.pixelWidth) * 4 + frame.pixelWidth * 4 ≤ frame.rgba.length := by
    have hmul := Nat.mul_le_mul_right frame.pixelWidth (Nat.succ_le_of_lt hrow)
    rw [hfull, Nat.mul_comm frame.pixelWidth frame.pixelHeight]
    rw [Nat.succ_mul] at hmul
    omega
  have hplace : ((placement.y + row) * width) * 4 + width * 4 ≤ rgba.length := by
    have hmul := Nat.mul_le_mul_right width (show placement.y + row + 1 ≤ height by omega)
    rw [hlength]
    rw [Nat.succ_mul] at hmul
    omega
  have hframe : frame.rgba.length ≤ rgba.length := by
    have hmul := Nat.mul_le_mul hwide (show frame.pixelHeight ≤ height by omega)
    rw [hfull, hlength, Nat.mul_comm height width]
    omega
  have hplaceRow : placement.y + row ≤ (placement.y + row) * width :=
    Nat.le_mul_of_pos_right _ hwidth
  have hsourceStart : row * (frame.pixelWidth * 4) = row * frame.pixelWidth * 4 :=
    (Nat.mul_assoc _ _ _).symm
  have hplaceStart : (placement.y + row) * (width * 4) = (placement.y + row) * width * 4 :=
    (Nat.mul_assoc _ _ _).symm
  have hwide4 := Nat.mul_le_mul_right 4 hwide
  have hend : (placement.y + row) * width * 4 + frame.pixelWidth * 4 ≤ rgba.length := by omega
  have hcut : ((frame.rgba.drop (row * frame.pixelWidth * 4)).take (frame.pixelWidth * 4)).length =
      frame.pixelWidth * 4 := by
    rw [length_take_of_le]
    rw [length_drop]
    omega
  refine ⟨overwrite rgba ((placement.y + row) * width * 4)
    ((frame.rgba.drop (row * frame.pixelWidth * 4)).take (frame.pixelWidth * 4)), ?_, ?_,
    fun px py hpx => ?_⟩
  · have hsourceMul := orFailed_checkedTo (show row * frame.pixelWidth * 4 ≤ usizeMax by omega)
    have hsourceAdd := orFailed_checkedTo
      (show row * frame.pixelWidth * 4 + frame.pixelWidth * 4 ≤ usizeMax by omega)
    have hrowAdd := orFailed_checkedTo (show placement.y + row ≤ usizeMax by omega)
    have hplaceMul := orFailed_checkedTo
      (show (placement.y + row) * width * 4 ≤ usizeMax by omega)
    have hplaceAdd := orFailed_checkedTo
      (show (placement.y + row) * width * 4 + frame.pixelWidth * 4 ≤ usizeMax by omega)
    rw [← hsourceStart] at hsourceMul hsourceAdd
    rw [← hplaceStart] at hplaceMul hplaceAdd
    simp only [copyFrameRow, hsourceMul, hsourceAdd, hrowAdd, hplaceMul, hplaceAdd, hleft,
      Nat.zero_mul, Nat.add_zero, bind, Except.bind]
    rw [hsourceStart, hplaceStart, slice_ok hsource, slice_ok hend]
    rfl
  · rw [length_overwrite (by omega)]
  · have hstart : ((placement.y + row) * width + frame.pixelWidth) * 4 ≤ rgba.length := by
      rw [Nat.add_mul]
      exact hend
    rw [rowAt_overwrite_rows hcut hstart]
    by_cases hin : py = placement.y + row ∧ px < frame.pixelWidth
    · rw [if_pos ((in_row_iff hpx hwide).mpr hin), if_pos hin, hin.1, Nat.add_sub_cancel_left,
        rowAt_slice hin.2]
    · rw [if_neg (fun h => hin ((in_row_iff hpx hwide).mp h)), if_neg hin]

/-- So are so many rows. -/
theorem copyFrameRows_ok (hwidth : 0 < width) (hfits : Fits frame placement width height)
    {count first : Nat} (hcount : first + count ≤ frame.pixelHeight)
    (hlength : rgba.length = height * width * 4) (hbytes : rgba.length ≤ usizeMax) :
    ∃ rgba', copyFrameRows frame placement (width * 4) (frame.pixelWidth * 4) count first rgba =
        .ok rgba' ∧ rgba'.length = rgba.length ∧
      ∀ px py, px < width → rowAt 4 rgba' (py * width + px) =
        if (placement.y + first ≤ py ∧ py < placement.y + first + count) ∧
            px < frame.pixelWidth then
          rowAt 4 frame.rgba ((py - placement.y) * frame.pixelWidth + px)
        else rowAt 4 rgba (py * width + px) := by
  induction count generalizing first rgba with
  | zero =>
    refine ⟨rgba, rfl, rfl, fun px py _ => ?_⟩
    rw [if_neg (by omega)]
  | succ count ih =>
    obtain ⟨next, hnext, hsame, hpixels⟩ :=
      copyFrameRow_ok hwidth hfits hlength hbytes (show first < frame.pixelHeight by omega)
    obtain ⟨rgba', hrest, hsame', hpixels'⟩ := @ih next (first + 1) (by omega)
      (hsame.trans hlength) (hsame.le.trans hbytes)
    refine ⟨rgba', bind_eq_ok.mpr ⟨next, hnext, hrest⟩, hsame'.trans hsame, fun px py hpx => ?_⟩
    rw [hpixels' px py hpx, hpixels px py hpx]
    by_cases hnow : py = placement.y + first ∧ px < frame.pixelWidth
    · obtain ⟨rfl, hpx'⟩ := hnow
      rw [if_neg (by omega), if_pos ⟨rfl, hpx'⟩, if_pos (by omega), Nat.add_sub_cancel_left]
    · rw [if_neg hnow]
      exact if_congr (by omega) rfl rfl

/-- **All frames are copied**: each to its place, and nothing is changed elsewhere. -/
theorem copyFrames_ok (hwidth : 0 < width) (hheight : 0 < height)
    {pairs : List (ResponsiveFrame × ContactSheetPlacement)}
    (hfits : ∀ pair ∈ pairs, Fits pair.1 pair.2 width height)
    (habove : (pairs.map Prod.snd).Pairwise Above)
    (hlength : rgba.length = height * width * 4) (hbytes : rgba.length ≤ usizeMax) :
    ∃ rgba', copyFrames (width * 4) pairs rgba = .ok rgba' ∧ rgba'.length = rgba.length ∧
      (∀ pair ∈ pairs, ∀ px py, px < pair.1.pixelWidth → py < pair.1.pixelHeight →
        rowAt 4 rgba' ((pair.2.y + py) * width + px) =
          rowAt 4 pair.1.rgba (py * pair.1.pixelWidth + px)) ∧
      ∀ px py, px < width → (∀ pair ∈ pairs, ¬ ((pair.2.y ≤ py ∧
          py < pair.2.y + pair.1.pixelHeight) ∧ px < pair.1.pixelWidth)) →
        rowAt 4 rgba' (py * width + px) = rowAt 4 rgba (py * width + px) := by
  induction pairs generalizing rgba with
  | nil => exact ⟨rgba, rfl, rfl, (fun _ h => nomatch h), fun _ _ _ _ => rfl⟩
  | cons pair pairs ih =>
    obtain ⟨frame, placement⟩ := pair
    rw [map_cons, pairwise_cons] at habove
    have hfirst : Fits frame placement width height := hfits _ mem_cons_self
    have hrestFits : ∀ pair ∈ pairs, Fits pair.1 pair.2 width height := fun pair hpair =>
      hfits pair (mem_cons_of_mem _ hpair)
    obtain ⟨next, hnext, hsame, hpixels⟩ := copyFrameRows_ok hwidth hfirst
      (Nat.le_of_eq (Nat.zero_add frame.pixelHeight)) hlength hbytes
    obtain ⟨rgba', hrest, hsame', hshown, hkept⟩ := ih hrestFits habove.2
      (hsame.trans hlength) (hsame.le.trans hbytes)
    have hstride : frame.pixelWidth * 4 ≤ usizeMax := by
      have hrow := Nat.le_mul_of_pos_left width hheight
      have hwide : frame.pixelWidth ≤ width := hfirst.wide
      omega
    refine ⟨rgba', ?_, hsame'.trans hsame, fun pair hpair px py hpx hpy => ?_,
      fun px py hpx hfree => ?_⟩
    · exact bind_eq_ok.mpr ⟨_, orFailed_checkedTo hstride, bind_eq_ok.mpr ⟨next, hnext, hrest⟩⟩
    · rcases mem_cons.mp hpair with rfl | hpair
      · simp only at hpx hpy ⊢
        have hpxw : px < width := Nat.lt_of_lt_of_le hpx hfirst.wide
        rw [hkept px (placement.y + py) hpxw, hpixels px _ hpxw, if_pos (by omega),
          Nat.add_sub_cancel_left]
        -- the frames below start where this one ends
        intro other hother hin
        have hbelow : Above placement other.2 := habove.1 _ (mem_map_of_mem hother)
        have hsame : placement.pixelHeight = frame.pixelHeight :=
          congrArg (fun shown => shown.1.2) hfirst.shows
        rw [Above, hsame] at hbelow
        omega
      · exact hshown pair hpair px py hpx hpy
    · rw [hkept px py hpx fun other hother => hfree other (mem_cons_of_mem _ hother),
        hpixels px py hpx, if_neg]
      have hnot := hfree (frame, placement) mem_cons_self
      simp only at hnot
      omega

end

/-! ## The contact sheet -/

/-- A pixel of the place. -/
structure ContactSheetPlacement.Has (placement : ContactSheetPlacement) (x y : Nat) : Prop where
  left : placement.x ≤ x
  right : x < placement.x + placement.pixelWidth
  top : placement.y ≤ y
  bottom : y < placement.y + placement.pixelHeight

def ResponsiveFrame.pixel (frame : ResponsiveFrame) (x y : Nat) : List UInt8 :=
  rowAt 4 frame.rgba (y * frame.pixelWidth + x)

def ResponsiveContactSheet.pixel (sheet : ResponsiveContactSheet) (x y : Nat) : List UInt8 :=
  rowAt 4 sheet.rgba (y * sheet.geometry.pixelWidth + x)

/-- The sheet shows each frame at its place, in the order of the plan and apart from the others,
and the gutter everywhere else; it has as many bytes as projected, within the budgets. -/
structure SheetExact (plan : ResponsiveSweepPlan) (frames : List ResponsiveFrame)
    (policy : ContactSheetPolicy) (sheet : ResponsiveContactSheet) : Prop where
  projected : projectContactSheet plan (frames.map ResponsiveFrame.size) policy =
    .ok sheet.geometry
  order : sheet.geometry.placements.map (fun placement => (placement.preset, placement.viewport)) =
    plan.presets.zip plan.viewports
  disjoint : sheet.geometry.placements.Pairwise fun p q => ∀ x y, ¬ (p.Has x y ∧ q.Has x y)
  shown : ∀ (i : Nat) (frame : ResponsiveFrame) (placement : ContactSheetPlacement),
    frames[i]? = some frame →
    sheet.geometry.placements[i]? = some placement →
    (placement.pixelWidth = frame.pixelWidth ∧ placement.pixelHeight = frame.pixelHeight) ∧
    ∀ x y, x < frame.pixelWidth → y < frame.pixelHeight →
      (placement.x + x < sheet.geometry.pixelWidth ∧
        placement.y + y < sheet.geometry.pixelHeight) ∧
      sheet.pixel (placement.x + x) (placement.y + y) = frame.pixel x y
  gutter : ∀ x y, x < sheet.geometry.pixelWidth → y < sheet.geometry.pixelHeight →
    (∀ placement ∈ sheet.geometry.placements, ¬ placement.Has x y) →
    sheet.pixel x y = policy.gutterRgba.bytes
  length : sheet.rgba.length = sheet.geometry.rgbaBytes
  sheetBudget : sheet.geometry.rgbaBytes ≤ policy.maxRgbaBytes
  frameBudget : (frames.map fun frame => frame.rgba.length).sum ≤ policy.maxFramesRgbaBytes

section
variable {plan : ResponsiveSweepPlan} {frames : List ResponsiveFrame} {policy : ContactSheetPolicy}
  {geometry : ContactSheetGeometry}

structure FramesPlaced (plan : ResponsiveSweepPlan) (frames : List ResponsiveFrame)
    (policy : ContactSheetPolicy) (geometry : ContactSheetGeometry) : Prop where
  projected : Projected plan (frames.map ResponsiveFrame.size) policy geometry
  eq_ok : projectContactSheet plan (frames.map ResponsiveFrame.size) policy = .ok geometry
  shows : geometry.placements.map ContactSheetPlacement.frame =
    frames.map fun frame => (frame.size, frame.preset, frame.viewport)
  order : (frames.map fun frame => (frame.preset, frame.viewport)) =
    plan.presets.zip plan.viewports
  full : ∀ frame ∈ frames, frame.Full

theorem framesPlaced {dimensions : List (Nat × Nat)}
    (hcount : frames.length = plan.presets.length)
    (hdimensions : frameDimensions plan 0 frames = .ok dimensions)
    (hgeometry : projectContactSheet plan dimensions policy = .ok geometry) :
    FramesPlaced plan frames policy geometry := by
  obtain ⟨rfl, hfull, hpresets, hviewports⟩ := frameDimensions_spec hdimensions
  have hprojected := projected_of_eq_ok hgeometry
  have hsame := hprojected.viewports
  rw [drop_zero, take_of_length_le (by omega)] at hpresets hviewports
  have horder : (frames.map fun frame => (frame.preset, frame.viewport)) =
      plan.presets.zip plan.viewports := by
    rw [← hpresets, ← hviewports, zip_map']
  obtain ⟨_, hplaced⟩ := hprojected.placed
  refine ⟨hprojected, hgeometry, ?_, horder, hfull⟩
  have hshows := hplaced.order
  rw [← horder, zip_map'] at hshows
  exact hshows

theorem FramesPlaced.length_eq (h : FramesPlaced plan frames policy geometry) :
    frames.length = geometry.placements.length := by
  have hlength := congrArg List.length h.shows
  rw [length_map, length_map] at hlength
  exact hlength.symm

theorem FramesPlaced.fits (h : FramesPlaced plan frames policy geometry) :
    ∀ pair ∈ frames.zip geometry.placements,
      Fits pair.1 pair.2 geometry.pixelWidth geometry.pixelHeight := by
  rintro ⟨frame, placement⟩ hpair
  obtain ⟨hframe, hplacement⟩ := of_mem_zip hpair
  obtain ⟨_, hplaced⟩ := h.projected.placed
  have hshows : placement.frame = (frame.size, frame.preset, frame.viewport) := by
    obtain ⟨i, hi⟩ := mem_iff_getElem?.mp hpair
    rw [getElem?_zip_eq_some] at hi
    have hat := congrArg (·[i]?) h.shows
    simp only [getElem?_map, hi.1, hi.2, Option.map_some, Option.some.injEq] at hat
    exact hat
  have hwide := hplaced.wide placement hplacement
  have hhigh := hplaced.high placement hplacement
  have hwidth : placement.pixelWidth = frame.pixelWidth :=
    congrArg (fun shown => shown.1.1) hshows
  have hheight : placement.pixelHeight = frame.pixelHeight :=
    congrArg (fun shown => shown.1.2) hshows
  rw [hwidth] at hwide
  rw [hheight] at hhigh
  exact ⟨h.full frame hframe, hshows, hplaced.left placement hplacement, hwide, hhigh⟩

theorem Above.disjoint {p q : ContactSheetPlacement} (h : Above p q) (x y : Nat) :
    ¬ (p.Has x y ∧ q.Has x y) := by
  rintro ⟨hp, hq⟩
  have hbottom := hp.bottom
  have htop := hq.top
  rw [Above] at h
  omega

theorem FramesPlaced.above (h : FramesPlaced plan frames policy geometry) :
    ((frames.zip geometry.placements).map Prod.snd).Pairwise Above := by
  obtain ⟨_, hplaced⟩ := h.projected.placed
  rw [map_snd_zip (Nat.le_of_eq h.length_eq.symm)]
  exact hplaced.above

/-- **The sheet is composed** where it can be allocated. -/
theorem FramesPlaced.composed (h : FramesPlaced plan frames policy geometry) {rgba : List UInt8}
    (hzeroed : zeroed geometry.rgbaBytes = .ok rgba) :
    ∃ sheet, orFailed (checkedTo usizeMax (geometry.pixelWidth * 4)) =
        .ok (geometry.pixelWidth * 4) ∧
      copyFrames (geometry.pixelWidth * 4) (frames.zip geometry.placements)
        (layGutter policy rgba) = .ok sheet ∧
      SheetExact plan frames policy ⟨geometry, sheet⟩ := by
  have hprojected := h.projected
  have hwidth := hprojected.width
  have hheight := hprojected.height
  have hbytes := hprojected.bytes
  have hfits := hprojected.fits
  have hrgba : rgba.length = geometry.pixelHeight * geometry.pixelWidth * 4 := by
    simp only [zeroed, rejectIf_bind_eq_ok] at hzeroed
    cases hzeroed.2
    rw [length_replicate, hbytes, Nat.mul_comm geometry.pixelWidth]
  obtain ⟨hlength, hgutter⟩ := @layGutter_spec policy _ _ hrgba
  have hsize : (layGutter policy rgba).length = geometry.rgbaBytes := by
    rw [hlength, hbytes, Nat.mul_comm geometry.pixelHeight]
  obtain ⟨sheet, hcopied, hsame, hshown, hkept⟩ := copyFrames_ok hwidth hheight h.fits h.above
    hlength (hsize.le.trans hfits)
  have hstride : geometry.pixelWidth * 4 ≤ usizeMax := by
    have hrow := Nat.le_mul_of_pos_right geometry.pixelWidth hheight
    omega
  obtain ⟨aggregate, hplaced⟩ := hprojected.placed
  refine ⟨sheet, orFailed_checkedTo hstride, hcopied, h.eq_ok, ?_,
    hplaced.above.imp fun habove => habove.disjoint, fun i frame placement hframe hplacement => ?_,
    fun x y hx hy hfree => ?_, hsame.trans hsize, hprojected.budget, ?_⟩
  · have horder := congrArg (List.map Prod.snd) h.shows
    rw [map_map, map_map] at horder
    exact horder.trans h.order
  · have hpair : (frame, placement) ∈ frames.zip geometry.placements :=
      mem_iff_getElem?.mpr ⟨i, getElem?_zip_eq_some.mpr ⟨hframe, hplacement⟩⟩
    have hfit : Fits frame placement geometry.pixelWidth geometry.pixelHeight := h.fits _ hpair
    obtain ⟨-, hshows, hleft, hwide, hhigh⟩ := hfit
    refine ⟨⟨congrArg (fun shown => shown.1.1) hshows, congrArg (fun shown => shown.1.2) hshows⟩,
      fun x y hx hy => ⟨?_, ?_⟩⟩
    · simp only
      omega
    · rw [hleft, Nat.zero_add]
      exact hshown _ hpair x y hx hy
  · refine (hkept x y hx ?_).trans (hgutter _ ?_)
    · rintro ⟨frame, placement⟩ hpair ⟨⟨htop, hbottom⟩, hright⟩
      have hfit : Fits frame placement geometry.pixelWidth geometry.pixelHeight := h.fits _ hpair
      have hwidth' : placement.pixelWidth = frame.pixelWidth :=
        congrArg (fun shown => shown.1.1) hfit.shows
      have hheight' : placement.pixelHeight = frame.pixelHeight :=
        congrArg (fun shown => shown.1.2) hfit.shows
      have hleft := hfit.left
      exact hfree placement (of_mem_zip hpair).2
        ⟨by omega, by simp only at hright; omega, htop, by simp only at hbottom; omega⟩
    · have hy : y + 1 ≤ geometry.pixelHeight := hy
      have hmul := Nat.mul_le_mul_right geometry.pixelWidth hy
      rw [Nat.succ_mul] at hmul
      simp only at hx
      omega
  · have hsum := hplaced.budget
    rw [hplaced.bytes, ← h.order, zip_map', map_map] at hsum
    have hsizes : frames.map (fun frame => frame.rgba.length) =
        frames.map ((fun frame : (Nat × Nat) × ResponsivePresetId × Viewport =>
          frame.1.1 * frame.1.2 * 4) ∘
          fun frame => (frame.size, frame.preset, frame.viewport)) :=
      map_congr_left fun frame hframe => h.full frame hframe
    rw [hsizes]
    exact hsum

/-- The only panic is the allocation's. -/
theorem build_eq_panicked_iff (hviewports : plan.viewports.length = plan.presets.length) :
    buildResponsiveContactSheet plan frames policy = .error panicked ↔
      ∃ dimensions geometry, frameDimensions plan 0 frames = .ok dimensions ∧
        projectContactSheet plan dimensions policy = .ok geometry ∧
        isizeMax < geometry.rgbaBytes := by
  constructor
  · intro h
    simp only [buildResponsiveContactSheet, bind_eq_error, rejectIf_eq_error, rejectIf_eq_ok,
      reduceCtorEq, and_false, false_or, not_not, orFailed_ne_panicked, orFailed_eq_ok] at h
    obtain ⟨_, hcount, hdimensions | ⟨dimensions, hdimensions, geometry, hgeometry, hrest⟩⟩ := h
    · exact absurd hdimensions (frameDimensions_ne_panicked hviewports (by omega))
    · refine ⟨dimensions, geometry, hdimensions, hgeometry, ?_⟩
      rcases hrest with hzeroed | ⟨rgba, hzeroed, hrest⟩
      · simp only [zeroed, bind_eq_error, rejectIf_eq_error] at hzeroed
        rcases hzeroed with hlarge | ⟨_, -, hpure⟩
        · exact hlarge.1
        · cases hpure
      · obtain ⟨sheet, hstride, hcopied, -⟩ :=
          (framesPlaced hcount hdimensions hgeometry).composed hzeroed
        obtain ⟨stride, hstride', hrest⟩ := hrest
        have heq := orFailed_eq_ok.mpr hstride'
        rw [hstride] at heq
        cases heq
        rw [hcopied] at hrest
        rcases hrest with hfalse | ⟨_, -, hpure⟩
        · cases hfalse
        · cases hpure
  · rintro ⟨dimensions, geometry, hdimensions, hgeometry, hlarge⟩
    have hcount : frames.length = plan.presets.length := by
      have hprojected := projected_of_eq_ok hgeometry
      rw [← hprojected.count, (frameDimensions_spec hdimensions).1, length_map]
    have hzeroed : zeroed geometry.rgbaBytes = .error panicked := by
      rw [zeroed, rejectIf, if_pos hlarge]
      rfl
    simp only [buildResponsiveContactSheet, hdimensions, hgeometry, hzeroed, rejectIf,
      if_neg (not_not.mpr hcount), orFailed, mapError_ok, bind, Except.bind]

/-- **A contact sheet is exact.**  Composing one panics just where more bytes are projected than a
`Vec` may have, and what it returns is the sheet. -/
theorem buildResponsiveContactSheet_exact
    (hviewports : plan.viewports.length = plan.presets.length) :
    (buildResponsiveContactSheet plan frames policy = .error panicked ↔
      ∃ dimensions geometry, frameDimensions plan 0 frames = .ok dimensions ∧
        projectContactSheet plan dimensions policy = .ok geometry ∧
        isizeMax < geometry.rgbaBytes) ∧
    ∀ sheet, buildResponsiveContactSheet plan frames policy = .ok sheet →
      SheetExact plan frames policy sheet := by
  refine ⟨build_eq_panicked_iff hviewports, fun sheet h => ?_⟩
  simp only [buildResponsiveContactSheet, bind_eq_ok, rejectIf_eq_ok, not_not,
    orFailed_eq_ok] at h
  obtain ⟨_, hcount, dimensions, hdimensions, geometry, hgeometry, rgba, hzeroed, stride, hstride,
    bytes, hcopied, hsheet⟩ := h
  cases hsheet
  obtain ⟨sheet, hstride', hcopied', hexact⟩ :=
    (framesPlaced hcount hdimensions hgeometry).composed hzeroed
  have heq := orFailed_eq_ok.mpr hstride
  rw [hstride'] at heq
  cases heq
  rw [hcopied'] at hcopied
  cases hcopied
  exact hexact

end

def twoPresets : ResponsiveSweepPlan where
  presets := [.mobileS, .mobile]
  viewports := [⟨320, 568⟩, ⟨390, 844⟩]

/-- A frame two pixels wide above one of a single pixel. -/
def twoFrames : List ResponsiveFrame :=
  [⟨.mobileS, ⟨320, 568⟩, 2, 1, [1, 2, 3, 255, 4, 5, 6, 255]⟩,
    ⟨.mobile, ⟨390, 844⟩, 1, 1, [10, 11, 12, 255]⟩]

def onePixelGutter : ContactSheetPolicy := ⟨1, 1024, 512, ⟨9, 8, 7, 255⟩⟩

def twoFramesSheet : ResponsiveContactSheet where
  geometry := ⟨2, 3, 24, [⟨.mobileS, ⟨320, 568⟩, 0, 0, 2, 1⟩, ⟨.mobile, ⟨390, 844⟩, 0, 2, 1, 1⟩]⟩
  rgba := [1, 2, 3, 255, 4, 5, 6, 255, 9, 8, 7, 255, 9, 8, 7, 255, 10, 11, 12, 255, 9, 8, 7, 255]

theorem twoFramesSheet_exact :
    buildResponsiveContactSheet twoPresets twoFrames onePixelGutter = .ok twoFramesSheet ∧
      SheetExact twoPresets twoFrames onePixelGutter twoFramesSheet := by
  have hbuilt : buildResponsiveContactSheet twoPresets twoFrames onePixelGutter =
      .ok twoFramesSheet := by decide +kernel
  exact ⟨hbuilt, (buildResponsiveContactSheet_exact rfl).2 _ hbuilt⟩

/-- Budgets that bound nothing, and a gutter as high as a `u32` allows. -/
def boundless : ContactSheetPolicy := ⟨4294967292, usizeMax, usizeMax, ⟨0, 0, 0, 255⟩⟩

/-- A row of 2^30 pixels above a single one. -/
def wideFrames (row : List UInt8) : List ResponsiveFrame :=
  [⟨.mobileS, ⟨320, 568⟩, 1073741824, 1, row⟩, ⟨.mobile, ⟨390, 844⟩, 1, 1, [0, 0, 0, 255]⟩]

theorem wideFrames_panics {row : List UInt8} (h : row.length = 4294967296) :
    buildResponsiveContactSheet twoPresets (wideFrames row) boundless =
      .error panicked := by
  have hdimensions : frameDimensions twoPresets 0 (wideFrames row) =
      .ok [(1073741824, 1), (1, 1)] := by
    have hwide : checkedRgbaBytes 1073741824 1 = .ok row.length := by
      rw [h]
      decide +kernel
    have hone : checkedRgbaBytes 1 1 = .ok 4 := by decide +kernel
    have hfull : rejectIf (row.length ≠ row.length)
        (failed .frameBufferLengthMismatch) = .ok () := if_neg (not_not.mpr rfl)
    simp only [wideFrames, frameDimensions, hwide, hone, orFailed, mapError_ok, bind,
      Except.bind, hfull]
    rfl
  have hgeometry : projectContactSheet twoPresets [(1073741824, 1), (1, 1)] boundless =
      .ok ⟨1073741824, 4294967294, 18446744065119617024,
        [⟨.mobileS, ⟨320, 568⟩, 0, 0, 1073741824, 1⟩,
          ⟨.mobile, ⟨390, 844⟩, 0, 4294967293, 1, 1⟩]⟩ := by decide +kernel
  exact (build_eq_panicked_iff rfl).mpr ⟨_, _, hdimensions, hgeometry, by decide⟩

/-- With a budget beyond what a `Vec` may have, the allocation panics. -/
theorem contactSheet_panics :
    ¬ ∀ plan frames policy, plan.viewports.length = plan.presets.length →
      buildResponsiveContactSheet plan frames policy ≠ .error panicked := fun h =>
  h twoPresets (wideFrames (List.replicate 4294967296 0)) boundless rfl
    (wideFrames_panics length_replicate)

end Localview
