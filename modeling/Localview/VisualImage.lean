import Mathlib.Tactic.Linarith
import Localview.Protocol
import Localview.EarlyReturn
import Localview.RowBuffer

/-! # Decoded images

The pixel buffer that `crates/visual` works on: four bytes a pixel, row by row.  A buffer
is valid where its length is what its dimensions, as `u32`, ask for.
-/
namespace Localview
open EarlyReturn List

/-- The largest `u32`. -/
def u32Max : Nat := 4294967295

/-- The largest `usize`, which has 64 bits here. -/
abbrev usizeMax : Nat := u64Max

/-- The failures of `VisualError` that no codec of images is in. -/
inductive VisualError
  | invalidBuffer
  | dimensionMismatch
  | invalidViewport
  | invalidMaskGeometry
  | invalidRegionGeometry
  | invalidChangePolicy
  | invalidBaselinePolicy
  deriving DecidableEq

/-- A rectangle in CSS pixels, its coordinates exact. -/
structure Rect where
  (x y width height : ℚ)
  deriving DecidableEq

namespace Rect

/-- The rectangle has the point, on its border or inside. -/
structure Has (rect : Rect) (point : ℚ × ℚ) : Prop where
  left : rect.x ≤ point.1
  right : point.1 ≤ rect.x + rect.width
  top : rect.y ≤ point.2
  bottom : point.2 ≤ rect.y + rect.height

/-- Two rectangles overlap or share a segment of an edge: they have two points in common. -/
def Meets (a b : Rect) : Prop := ∃ p q, p ≠ q ∧ (a.Has p ∧ b.Has p) ∧ a.Has q ∧ b.Has q

theorem Meets.symm {a b : Rect} (h : a.Meets b) : b.Meets a := by
  obtain ⟨p, q, hne, hp, hq⟩ := h
  exact ⟨p, q, hne, hp.symm, hq.symm⟩

/-- One rectangle lies within another. -/
structure Within (inner outer : Rect) : Prop where
  left : outer.x ≤ inner.x
  right : inner.x + inner.width ≤ outer.x + outer.width
  top : outer.y ≤ inner.y
  bottom : inner.y + inner.height ≤ outer.y + outer.height

theorem meets_iff {a b : Rect} (haw : 0 < a.width) (hah : 0 < a.height) (hbw : 0 < b.width)
    (hbh : 0 < b.height) :
    a.Meets b ↔
      (a.x ≤ b.x + b.width ∧ b.x ≤ a.x + a.width ∧
        a.y ≤ b.y + b.height ∧ b.y ≤ a.y + a.height) ∧
      (a.x < b.x + b.width ∧ b.x < a.x + a.width ∨
        a.y < b.y + b.height ∧ b.y < a.y + a.height) := by
  constructor
  · rintro ⟨⟨px, py⟩, ⟨qx, qy⟩, hne, ⟨hap, hbp⟩, haq, hbq⟩
    obtain ⟨hapl, hapr, hapt, hapb⟩ := hap
    obtain ⟨hbpl, hbpr, hbpt, hbpb⟩ := hbp
    obtain ⟨haql, haqr, haqt, haqb⟩ := haq
    obtain ⟨hbql, hbqr, hbqt, hbqb⟩ := hbq
    simp only at *
    refine ⟨⟨by linarith, by linarith, by linarith, by linarith⟩, ?_⟩
    by_cases hx : px = qx
    · have hy : py ≠ qy := fun hy => hne (Prod.ext hx hy)
      rcases lt_or_gt_of_ne hy with hlt | hgt
      · exact .inr ⟨by linarith, by linarith⟩
      · exact .inr ⟨by linarith, by linarith⟩
    · rcases lt_or_gt_of_ne hx with hlt | hgt
      · exact .inl ⟨by linarith, by linarith⟩
      · exact .inl ⟨by linarith, by linarith⟩
  · rintro ⟨⟨hleft, hright, htop, hbottom⟩, hwide⟩
    -- the corner up to which both reach, and the one from which
    have hstart : a.Has (max a.x b.x, max a.y b.y) ∧ b.Has (max a.x b.x, max a.y b.y) :=
      ⟨⟨le_max_left _ _, max_le (by linarith) hright, le_max_left _ _,
        max_le (by linarith) hbottom⟩, ⟨le_max_right _ _, max_le hleft (by linarith),
        le_max_right _ _, max_le htop (by linarith)⟩⟩
    have hend : a.Has (min (a.x + a.width) (b.x + b.width),
          min (a.y + a.height) (b.y + b.height)) ∧
        b.Has (min (a.x + a.width) (b.x + b.width), min (a.y + a.height) (b.y + b.height)) :=
      ⟨⟨le_min (by linarith) hleft, min_le_left _ _, le_min (by linarith) htop,
        min_le_left _ _⟩, ⟨le_min hright (by linarith), min_le_right _ _,
        le_min hbottom (by linarith), min_le_right _ _⟩⟩
    refine ⟨_, _, fun heq => ?_, hstart, hend⟩
    rw [Prod.mk.injEq] at heq
    rcases hwide with ⟨hx, hx'⟩ | ⟨hy, hy'⟩
    · have hlt : max a.x b.x < min (a.x + a.width) (b.x + b.width) :=
        max_lt (lt_min (by linarith) hx) (lt_min hx' (by linarith))
      exact absurd heq.1 hlt.ne
    · have hlt : max a.y b.y < min (a.y + a.height) (b.y + b.height) :=
        max_lt (lt_min (by linarith) hy) (lt_min hy' (by linarith))
      exact absurd heq.2 hlt.ne

end Rect

/-- The pixels of a rectangle, row by row. -/
def pixelsIn (imageWidth x y width height : Nat) : List Nat :=
  (List.range' y height).flatMap fun yy => (List.range' x width).map fun xx =>
    yy * imageWidth + xx

/-- The pixel at a place of an image is in a rectangle of it where the place is. -/
theorem mem_pixelsIn {imageWidth left top width height x y : Nat} (hx : x < imageWidth)
    (hright : left + width ≤ imageWidth) :
    y * imageWidth + x ∈ pixelsIn imageWidth left top width height ↔
      (left ≤ x ∧ x < left + width) ∧ top ≤ y ∧ y < top + height := by
  simp only [pixelsIn, mem_flatMap, mem_map, mem_range'_1]
  constructor
  · rintro ⟨yy, hyy, xx, hxx, heq⟩
    have hlt : xx < imageWidth := by omega
    have hmod : xx = x := by
      have hmod := congrArg (· % imageWidth) heq
      simp only [Nat.mul_add_mod', Nat.mod_eq_of_lt hlt, Nat.mod_eq_of_lt hx] at hmod
      exact hmod
    subst hmod
    have hmul : yy * imageWidth = y * imageWidth := by omega
    have hyeq : yy = y := Nat.eq_of_mul_eq_mul_right (Nat.zero_lt_of_lt hx) hmul
    exact ⟨hxx, hyeq ▸ hyy⟩
  · rintro ⟨hxx, hyy⟩
    exact ⟨y, hyy, x, hxx, rfl⟩

theorem lt_of_mem_pixelsIn {imageWidth imageHeight left top width height pixel : Nat}
    (hright : left + width ≤ imageWidth) (hbottom : top + height ≤ imageHeight)
    (h : pixel ∈ pixelsIn imageWidth left top width height) :
    pixel < imageWidth * imageHeight := by
  simp only [pixelsIn, mem_flatMap, mem_map, mem_range'_1] at h
  obtain ⟨yy, hyy, xx, hxx, rfl⟩ := h
  have hle : (yy + 1) * imageWidth ≤ imageHeight * imageWidth :=
    Nat.mul_le_mul_right _ (by omega)
  rw [Nat.succ_mul, Nat.mul_comm imageHeight] at hle
  omega

/-- Pixels row by row, four bytes each. -/
structure RgbaImage where
  (width height : Nat)
  data : List UInt8

namespace RgbaImage

/-- `validate`; the products are checked as `u32`. -/
def validate (image : RgbaImage) : Except VisualError Unit := do
  rejectIf (u32Max < image.width * image.height) .invalidBuffer
  rejectIf (u32Max < image.width * image.height * 4) .invalidBuffer
  rejectIf (image.width = 0 ∨ image.height = 0 ∨
    image.data.length ≠ image.width * image.height * 4) .invalidBuffer

/-- The data is as long as the size says. -/
structure Valid (image : RgbaImage) : Prop where
  width : 0 < image.width
  height : 0 < image.height
  length : image.data.length = image.width * image.height * 4
  bound : image.data.length ≤ u32Max

theorem validate_eq_ok {image : RgbaImage} : image.validate = .ok () ↔ image.Valid := by
  simp only [validate, bind_eq_ok, rejectIf_eq_ok, exists_const]
  constructor
  · rintro ⟨-, hsize, hrest⟩
    push Not at hrest
    exact ⟨by omega, by omega, by omega, by omega⟩
  · rintro ⟨hwidth, hheight, hlength, hbound⟩
    refine ⟨by omega, by omega, ?_⟩
    push Not
    exact ⟨by omega, by omega, hlength⟩

theorem Valid.pos {image : RgbaImage} (h : image.Valid) : 0 < image.data.length := by
  have := Nat.mul_pos h.width h.height
  have := h.length
  omega

theorem Valid.width_le {image : RgbaImage} (h : image.Valid) : image.width * 4 ≤ u32Max := by
  have hle := Nat.mul_le_mul_right 4 (Nat.le_mul_of_pos_right image.width h.height)
  exact Nat.le_trans hle (h.length ▸ h.bound)

theorem Valid.height_le {image : RgbaImage} (h : image.Valid) : image.height ≤ u32Max := by
  have hlength := h.length
  have hbound := h.bound
  have hle := Nat.le_mul_of_pos_left image.height h.width
  omega

/-- The four bytes of a pixel. -/
def pixel (image : RgbaImage) (x y : Nat) : List UInt8 :=
  RowBuffer.rowAt 4 image.data (y * image.width + x)

/-- What a pixel stands for in CSS pixels. -/
def cssCell (image : RgbaImage) (cssViewport : ℚ × ℚ) (x y : Nat) : Rect where
  x := x * (cssViewport.1 / image.width)
  y := y * (cssViewport.2 / image.height)
  width := cssViewport.1 / image.width
  height := cssViewport.2 / image.height

end RgbaImage
end Localview
