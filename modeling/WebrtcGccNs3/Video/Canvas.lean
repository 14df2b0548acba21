import WebrtcGccNs3.Lib.Raster
import WebrtcGccNs3.Video.YuvFiles

/-!
# Drawing on a frame

A square is written into the planes of a frame row by row, in those of half the size as a
square of half the size, without a check. Inside the frame all writes are inside the planes,
and what is seen are the squares, each above those before it.
-/
namespace WebrtcGccNs3.Video

open Raster (Rect memset fill painted Paints)

structure Look where
  length : ℕ
  yuvY : UInt8
  yuvU : UInt8
  yuvV : UInt8
  yuvA : UInt8
  deriving DecidableEq

/-- Where a square is drawn, and how. -/
structure Patch extends Look where
  x : ℕ
  y : ℕ

/-- A frame that squares are drawn on, with the alpha plane if it has one. -/
structure Canvas where
  buffer : VideoFrameBuffer
  dataA : Option (List UInt8)

/-- A grey buffer, with no padding between rows. -/
def createI420Buffer (width height : ℕ) : VideoFrameBuffer where
  width := width
  height := height
  dataY := List.replicate (width * height) 127
  strideY := width
  dataU := List.replicate ((width + 1) / 2 * ((height + 1) / 2)) 127
  strideU := (width + 1) / 2
  dataV := List.replicate ((width + 1) / 2 * ((height + 1) / 2)) 127
  strideV := (width + 1) / 2

/-- The loop over `y` from `p.y` to `p.y + p.length`, for a plane of the full size. -/
def drawRows (data : List UInt8) (stride : ℕ) (p : Patch) (yuv : UInt8) : Option (List UInt8) :=
  (List.range p.length).foldlM (fun data i => memset data (p.x + (p.y + i) * stride) yuv p.length) data

/-- The same loop in steps of two, for a plane of half the size. -/
def drawHalfRows (data : List UInt8) (stride : ℕ) (p : Patch) (yuv : UInt8) : Option (List UInt8) :=
  (List.range ((p.length + 1) / 2)).foldlM
    (fun data i => memset data (p.x / 2 + (p.y + 2 * i) / 2 * stride) yuv (p.length / 2)) data

/-- Optionally draw on alpha plane if given. -/
def drawAlpha (canvas : Canvas) (p : Patch) : Option (Option (List UInt8)) :=
  match canvas.dataA with
  | none => some none
  | some plane => (drawRows plane canvas.buffer.width p p.yuvA).map some

/-- `none` where a write is outside of its plane. -/
def drawPatch (canvas : Canvas) (p : Patch) : Option Canvas := do
  let dataY ← drawRows canvas.buffer.dataY canvas.buffer.strideY p p.yuvY
  let dataU ← drawHalfRows canvas.buffer.dataU canvas.buffer.strideU p p.yuvU
  let dataV ← drawHalfRows canvas.buffer.dataV canvas.buffer.strideV p p.yuvV
  let dataA ← drawAlpha canvas p
  return { buffer := { canvas.buffer with dataY := dataY, dataU := dataU, dataV := dataV }, dataA := dataA }

namespace Patch

def rectY (p : Patch) : Rect UInt8 := ⟨p.x, p.y, p.length, p.length, p.yuvY⟩

def rectA (p : Patch) : Rect UInt8 := ⟨p.x, p.y, p.length, p.length, p.yuvA⟩

def rectU (p : Patch) : Rect UInt8 := ⟨p.x / 2, p.y / 2, p.length / 2, (p.length + 1) / 2, p.yuvU⟩

def rectV (p : Patch) : Rect UInt8 := ⟨p.x / 2, p.y / 2, p.length / 2, (p.length + 1) / 2, p.yuvV⟩

structure Inside (p : Patch) (width height : ℕ) : Prop where
  width_le : p.x + p.length ≤ width
  height_le : p.y + p.length ≤ height

end Patch

section Draw

variable {width height : ℕ} {canvas canvas' : Canvas} {p : Patch} {patches : List Patch}

theorem drawHalfRows_eq (data : List UInt8) (stride : ℕ) (yuv : UInt8) :
    drawHalfRows data stride p yuv =
      fill stride data ⟨p.x / 2, p.y / 2, p.length / 2, (p.length + 1) / 2, yuv⟩ := by
  unfold drawHalfRows fill
  simp only [Nat.add_mul_div_left _ _ Nat.two_pos]

/-- The planes of a canvas, and what patches have made of them. -/
structure Painted (width : ℕ) (patches : List Patch) (canvas canvas' : Canvas) : Prop where
  planeY : Paints width (patches.map Patch.rectY) canvas.buffer.dataY canvas'.buffer.dataY
  planeU : Paints ((width + 1) / 2) (patches.map Patch.rectU) canvas.buffer.dataU canvas'.buffer.dataU
  planeV : Paints ((width + 1) / 2) (patches.map Patch.rectV) canvas.buffer.dataV canvas'.buffer.dataV
  planeA : Option.Rel (Paints width (patches.map Patch.rectA)) canvas.dataA canvas'.dataA

/-- A canvas of a size, without padding. -/
structure Canvas.Sized (canvas : Canvas) (width height : ℕ) : Prop where
  width_eq : canvas.buffer.width = width
  height_eq : canvas.buffer.height = height
  strideY_eq : canvas.buffer.strideY = width
  strideU_eq : canvas.buffer.strideU = (width + 1) / 2
  strideV_eq : canvas.buffer.strideV = (width + 1) / 2
  lengthY : canvas.buffer.dataY.length = width * height
  lengthU : canvas.buffer.dataU.length = (width + 1) / 2 * ((height + 1) / 2)
  lengthV : canvas.buffer.dataV.length = (width + 1) / 2 * ((height + 1) / 2)
  lengthA : ∀ plane ∈ canvas.dataA, plane.length = width * height

theorem drawPatch_spec (hin : p.Inside width height) (hsized : canvas.Sized width height) :
    ∃ canvas', drawPatch canvas p = some canvas' ∧ canvas'.Sized width height ∧
      Painted width [p] canvas canvas' := by
  have hwidth := hin.width_le
  have hheight := hin.height_le
  obtain ⟨dataY, hfillY, hY⟩ := Raster.fill_paints (r := p.rectY) ⟨hwidth, hheight⟩ hsized.lengthY
  obtain ⟨dataU, hfillU, hU⟩ := Raster.fill_paints (r := p.rectU)
    ⟨show p.x / 2 + p.length / 2 ≤ (width + 1) / 2 by omega,
      show p.y / 2 + (p.length + 1) / 2 ≤ (height + 1) / 2 by omega⟩ hsized.lengthU
  obtain ⟨dataV, hfillV, hV⟩ := Raster.fill_paints (r := p.rectV)
    ⟨show p.x / 2 + p.length / 2 ≤ (width + 1) / 2 by omega,
      show p.y / 2 + (p.length + 1) / 2 ≤ (height + 1) / 2 by omega⟩ hsized.lengthV
  obtain ⟨dataA, hfillA, hA⟩ : ∃ dataA, drawAlpha canvas p = some dataA ∧
      Option.Rel (Paints width [p.rectA]) canvas.dataA dataA := by
    have hlength := hsized.lengthA
    unfold drawAlpha
    cases hplane : canvas.dataA with
    | none => exact ⟨none, rfl, Option.Rel.none⟩
    | some plane =>
      obtain ⟨plane', hfill, hpaints⟩ :=
        Raster.fill_paints (r := p.rectA) ⟨hwidth, hheight⟩ (hlength plane hplane)
      refine ⟨some plane', ?_, Option.Rel.some hpaints⟩
      rw [hsized.width_eq]
      exact congrArg (Option.map some) hfill
  have hlengthA : ∀ plane ∈ dataA, plane.length = width * height := by
    rintro plane rfl
    cases hplane : canvas.dataA with
    | none => rw [hplane] at hA; cases hA
    | some before =>
      rw [hplane] at hA
      cases hA with
      | some hpaints => exact hpaints.length_eq.trans (hsized.lengthA before hplane)
  refine ⟨⟨{ canvas.buffer with dataY := dataY, dataU := dataU, dataV := dataV }, dataA⟩, ?_, ?_, ?_⟩
  · rw [drawPatch, drawHalfRows_eq, drawHalfRows_eq, hsized.strideY_eq, hsized.strideU_eq,
      hsized.strideV_eq]
    have hfillY : drawRows canvas.buffer.dataY width p p.yuvY = some dataY := hfillY
    rw [hfillY, Option.bind_eq_bind, Option.bind_some]
    change (fill _ _ p.rectU >>= _) = _
    rw [hfillU, Option.bind_eq_bind, Option.bind_some]
    change (fill _ _ p.rectV >>= _) = _
    rw [hfillV, Option.bind_eq_bind, Option.bind_some, hfillA]
    rfl
  · exact ⟨hsized.width_eq, hsized.height_eq, hsized.strideY_eq, hsized.strideU_eq, hsized.strideV_eq,
      hY.length_eq.trans hsized.lengthY, hU.length_eq.trans hsized.lengthU, hV.length_eq.trans hsized.lengthV,
      hlengthA⟩
  · exact ⟨hY, hU, hV, hA⟩

/-- Patches one after the other. -/
theorem drawPatches_spec (hin : ∀ p ∈ patches, p.Inside width height)
    (hsized : canvas.Sized width height) :
    ∃ canvas', patches.foldlM drawPatch canvas = some canvas' ∧ canvas'.Sized width height ∧
      Painted width patches canvas canvas' := by
  induction patches generalizing canvas with
  | nil =>
    refine ⟨canvas, rfl, hsized, Raster.paints_nil _ _, Raster.paints_nil _ _, Raster.paints_nil _ _, ?_⟩
    cases canvas.dataA with
    | none => exact Option.Rel.none
    | some plane => exact Option.Rel.some (Raster.paints_nil _ _)
  | cons p rest ih =>
    obtain ⟨first, hfirst, hsized', hpainted⟩ := drawPatch_spec (hin p List.mem_cons_self) hsized
    obtain ⟨last, hlast, hsized'', hpainted'⟩ := ih (fun q hq => hin q (List.mem_cons_of_mem _ hq)) hsized'
    refine ⟨last, ?_, hsized'', hpainted.planeY.cons hpainted'.planeY, hpainted.planeU.cons hpainted'.planeU,
      hpainted.planeV.cons hpainted'.planeV, ?_⟩
    · rw [List.foldlM_cons, hfirst]
      exact hlast
    · have hA := hpainted.planeA
      have hA' := hpainted'.planeA
      generalize canvas.dataA = before at hA
      generalize first.dataA = between at hA hA'
      generalize last.dataA = after at hA'
      cases hA with
      | none =>
        cases hA'
        exact Option.Rel.none
      | some hpaints =>
        cases hA' with
        | some hpaints' => exact Option.Rel.some (hpaints.cons hpaints')

/-- A frame with patches on grey. -/
structure Shows (width height : ℕ) (patches : List Patch) (frame : Canvas) : Prop where
  width_eq : frame.buffer.width = width
  height_eq : frame.buffer.height = height
  pixelY : ∀ row < height, ∀ col < width,
    frame.buffer.dataY[row * width + col]? = some (painted (patches.map Patch.rectY) row col 127)
  pixelU : ∀ row < (height + 1) / 2, ∀ col < (width + 1) / 2,
    frame.buffer.dataU[row * ((width + 1) / 2) + col]? = some (painted (patches.map Patch.rectU) row col 127)
  pixelV : ∀ row < (height + 1) / 2, ∀ col < (width + 1) / 2,
    frame.buffer.dataV[row * ((width + 1) / 2) + col]? = some (painted (patches.map Patch.rectV) row col 127)
  pixelA : ∀ plane ∈ frame.dataA, ∀ row < height, ∀ col < width,
    plane[row * width + col]? = some (painted (patches.map Patch.rectA) row col 127)

/-- A grey canvas. -/
def createCanvas (width height : ℕ) (alpha : Bool) : Canvas where
  buffer := createI420Buffer width height
  dataA := if alpha then some (createI420Buffer width height).dataY else none

theorem sized_createCanvas (width height : ℕ) (alpha : Bool) :
    (createCanvas width height alpha).Sized width height := by
  have hlengthA : ∀ plane ∈ (createCanvas width height alpha).dataA, plane.length = width * height := by
    intro plane hplane
    cases alpha with
    | false => cases hplane
    | true =>
      obtain rfl : (createI420Buffer width height).dataY = plane := Option.some.inj hplane
      exact List.length_replicate
  exact ⟨rfl, rfl, rfl, rfl, rfl, List.length_replicate, List.length_replicate,
    List.length_replicate, hlengthA⟩

theorem Painted.shows {alpha : Bool} (h : Painted width patches (createCanvas width height alpha) canvas')
    (hsized : canvas'.Sized width height) :
    Shows width height patches canvas' ∧ canvas'.dataA.isSome = alpha := by
  obtain ⟨hY, hU, hV, hA⟩ := h
  have hplane : canvas'.dataA.isSome = alpha ∧
      ∀ plane ∈ canvas'.dataA,
        Paints width (patches.map Patch.rectA) (List.replicate (width * height) 127) plane := by
    cases alpha with
    | false =>
      generalize canvas'.dataA = after at hA ⊢
      cases hA
      exact ⟨rfl, fun plane hplane => by cases hplane⟩
    | true =>
      generalize canvas'.dataA = after at hA ⊢
      cases hA with
      | some hpaints =>
        refine ⟨rfl, fun plane hplane => ?_⟩
        obtain rfl := Option.some.inj hplane
        exact hpaints
  exact ⟨⟨hsized.width_eq, hsized.height_eq, fun row hrow col hcol => hY.of_replicate rfl hrow hcol,
    fun row hrow col hcol => hU.of_replicate rfl hrow hcol,
    fun row hrow col hcol => hV.of_replicate rfl hrow hcol,
    fun plane hmem row hrow col hcol => (hplane.2 plane hmem).of_replicate rfl hrow hcol⟩, hplane.1⟩

end Draw

end WebrtcGccNs3.Video
