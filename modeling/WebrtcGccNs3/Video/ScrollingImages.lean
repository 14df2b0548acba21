import WebrtcGccNs3.Video.YuvFiles
import WebrtcGccNs3.Wire.Trace

/-!
# Scrolling images

`ScrollingImageFrameGenerator` shows a window of an image that moves from its first corner to
the last and stays there, then the same with the next image. Which image it is follows from
the time. A frame is marked as unchanged only if it is the frame before it. But a first frame
that belongs to the last image has no source to be cut from.
-/
namespace WebrtcGccNs3.Video

open Wire (toDouble)

/-- How far the image was scrolled, from 0 to 1. -/
def scrollFactor (scrollTime timeIntoFrame : ℕ) : ℚ :=
  if timeIntoFrame < scrollTime then toDouble (toDouble timeIntoFrame / toDouble scrollTime) else 1

/-- The margin is that of a source that is no smaller than the target, as the constructor demands. -/
def pixelsScrolled (margin : ℕ) (scrollFactor : ℚ) : ℕ :=
  ⌊toDouble (toDouble (margin * scrollFactor) + 1 / 2)⌋₊

/-- A buffer with the rows of another one, from a place in each plane on. -/
def wrapI420Buffer (width height : ℕ) (source : VideoFrameBuffer) (offsetY offsetU offsetV : ℕ) :
    VideoFrameBuffer where
  width := width
  height := height
  dataY := source.dataY.drop offsetY
  strideY := source.strideY
  dataU := source.dataU.drop offsetU
  strideU := source.strideU
  dataV := source.dataV.drop offsetV
  strideV := source.strideV

structure ScrollSettings where
  startTime : ℕ
  scrollTime : ℕ
  pauseTime : ℕ
  numFrames : ℕ
  targetWidth : ℕ
  targetHeight : ℕ

structure ScrollingImageFrameGenerator extends ScrollSettings where
  currentFrameNum : ℕ
  prevFrameNotScrolled : Bool
  currentSourceFrame : VideoFrameData
  currentFrame : VideoFrameData
  fileGenerator : YuvFileGenerator

namespace ScrollSettings

def frameDisplayTime (s : ScrollSettings) : ℕ := s.scrollTime + s.pauseTime

def frameNum (s : ScrollSettings) (ms : ℕ) : ℕ := ms / s.frameDisplayTime % s.numFrames

def timeIntoFrame (s : ScrollSettings) (ms : ℕ) : ℕ := ms % s.frameDisplayTime

def notScrolled (s : ScrollSettings) (ms : ℕ) : Bool := s.scrollTime ≤ s.timeIntoFrame ms

/-- The part of the source that is shown. -/
def crop (s : ScrollSettings) (source : VideoFrameBuffer) (scrollFactor : ℚ) : VideoFrameBuffer :=
  let x := pixelsScrolled (source.width - s.targetWidth) scrollFactor
  let y := pixelsScrolled (source.height - s.targetHeight) scrollFactor
  wrapI420Buffer s.targetWidth s.targetHeight source (source.strideY * y + x)
    (source.strideU * (y / 2) + x / 2) (source.strideV * (y / 2) + x / 2)

def fullUpdate (s : ScrollSettings) : UpdateRect := ⟨0, 0, s.targetWidth, s.targetHeight⟩

end ScrollSettings

namespace ScrollingImageFrameGenerator

def create (clock : ℕ) (files : List File) (sourceWidth sourceHeight targetWidth targetHeight scrollTime
    pauseTime : ℕ) : ScrollingImageFrameGenerator where
  startTime := clock
  scrollTime := scrollTime
  pauseTime := pauseTime
  numFrames := files.length
  targetWidth := targetWidth
  targetHeight := targetHeight
  currentFrameNum := files.length - 1
  prevFrameNotScrolled := false
  currentSourceFrame := ⟨none, none⟩
  currentFrame := ⟨none, none⟩
  fileGenerator := YuvFileGenerator.create files sourceWidth sourceHeight 1

/-- `IsEmpty` and `Union` of `VideoFrame::UpdateRect`. -/
structure RectOps where
  isEmpty : UpdateRect → Bool
  union : UpdateRect → UpdateRect → UpdateRect

/-- What the generator relies on of the rectangles. -/
structure RectOps.Lawful (ops : RectOps) : Prop where
  isEmpty_zero : ops.isEmpty ⟨0, 0, 0, 0⟩ = true
  isEmpty_full : ∀ width height, 0 < width → 0 < height → ops.isEmpty ⟨0, 0, width, height⟩ = false
  isEmpty_union : ∀ r r', ops.isEmpty (ops.union r r') = (ops.isEmpty r && ops.isEmpty r')

/-- The loop of `UpdateSourceFrame`, with at most `fuel` rounds. `none` also where the file generator
fails. -/
def readUntil (ops : RectOps) (frameNum : ℕ) :
    ℕ → UpdateRect × ScrollingImageFrameGenerator → Option (UpdateRect × ScrollingImageFrameGenerator)
  | 0, s => if s.2.currentFrameNum = frameNum then some s else none
  | fuel + 1, s =>
    if s.2.currentFrameNum = frameNum then some s else do
      let read ← s.2.fileGenerator.nextFrame
      let accUpdate := match read.1.updateRect with
        | some rect => ops.union s.1 rect
        | none => s.1
      readUntil ops frameNum fuel (accUpdate, { s.2 with
        currentSourceFrame := read.1
        currentFrameNum := (s.2.currentFrameNum + 1) % s.2.numFrames
        fileGenerator := read.2 })

def updateSourceFrame (ops : RectOps) (gen : ScrollingImageFrameGenerator) (frameNum : ℕ) :
    Option ScrollingImageFrameGenerator := do
  let read ← readUntil ops frameNum gen.numFrames (⟨0, 0, 0, 0⟩, gen)
  return { read.2 with currentSourceFrame := { read.2.currentSourceFrame with updateRect := some read.1 } }

/-- `none` where the buffer of the source is null. -/
def cropSourceToScrolledImage (ops : RectOps) (gen : ScrollingImageFrameGenerator) (scrollFactor : ℚ) :
    Option ScrollingImageFrameGenerator := do
  let source ← gen.currentSourceFrame.buffer
  let sourceUpdate ← gen.currentSourceFrame.updateRect
  let updateRect := if ops.isEmpty sourceUpdate then ⟨0, 0, 0, 0⟩ else gen.fullUpdate
  return { gen with currentFrame := ⟨some (gen.crop source scrollFactor), some updateRect⟩ }

def nextFrame (ops : RectOps) (gen : ScrollingImageFrameGenerator) (now : ℕ) :
    Option (VideoFrameData × ScrollingImageFrameGenerator) := do
  let msSinceStart := now - gen.startTime
  let updated ← gen.updateSourceFrame ops (gen.frameNum msSinceStart)
  let curFrameNotScrolled := gen.notScrolled msSinceStart
  let cropped ← updated.cropSourceToScrolledImage ops
    (scrollFactor gen.scrollTime (gen.timeIntoFrame msSinceStart))
  let sameScrollPosition := cropped.prevFrameNotScrolled && curFrameNotScrolled
  -- if scrolling is not finished yet, force full frame update
  let frame := if sameScrollPosition then cropped.currentFrame
    else { cropped.currentFrame with updateRect := some gen.fullUpdate }
  return (frame, { cropped with currentFrame := frame, prevFrameNotScrolled := curFrameNotScrolled })

/-- The frames at the given times. -/
def nextFrames (ops : RectOps) (gen : ScrollingImageFrameGenerator) :
    List ℕ → Option (List VideoFrameData × ScrollingImageFrameGenerator)
  | [] => some ([], gen)
  | now :: times => do
    let frame ← gen.nextFrame ops now
    let rest ← frame.2.nextFrames ops times
    return (frame.1 :: rest.1, rest.2)

end ScrollingImageFrameGenerator

section Scroll

variable {scrollTime time time' margin : ℕ}

theorem toDouble_nonneg {x : ℚ} (h : 0 ≤ x) : 0 ≤ toDouble x := Rounding.toPrecision_nonneg (by decide) h

theorem toDouble_mono {x y : ℚ} (h : 0 ≤ x) (hle : x ≤ y) : toDouble x ≤ toDouble y :=
  Rounding.toPrecision_mono (by decide) (by decide) h hle

theorem toDouble_natCast {n : ℕ} (h : n < 2 ^ 53) : toDouble n = n :=
  Rounding.toPrecision_natCast (by decide) h

theorem toDouble_add_half {n : ℕ} (h : n < 2 ^ 52) : toDouble (n + 1 / 2) = n + 1 / 2 := by
  have hpos : (0 : ℚ) < n + 1 / 2 := by positivity
  have hshift := Rounding.toPrecision_mul_base (b := 2) (by decide) 53 hpos
  have hodd : ((2 : ℕ) : ℚ) * (n + 1 / 2) = (2 * n + 1 : ℕ) := by
    push_cast
    ring
  rw [hodd, Rounding.toPrecision_natCast (by decide) (by omega)] at hshift
  push_cast at hshift
  show Rounding.toPrecision 2 53 _ = _
  linarith

theorem scrollFactor_nonneg : 0 ≤ scrollFactor scrollTime time := by
  unfold scrollFactor
  split
  · exact toDouble_nonneg
      (div_nonneg (toDouble_nonneg (Nat.cast_nonneg _)) (toDouble_nonneg (Nat.cast_nonneg _)))
  · exact zero_le_one

theorem scrollFactor_le_one : scrollFactor scrollTime time ≤ 1 := by
  unfold scrollFactor
  split
  · rename_i hlt
    have hle : toDouble time ≤ toDouble scrollTime :=
      toDouble_mono (Nat.cast_nonneg _) (by exact_mod_cast hlt.le)
    have hquotient := div_le_one_of_le₀ hle (toDouble_nonneg (Nat.cast_nonneg _))
    have hone : toDouble ((1 : ℕ) : ℚ) = (1 : ℕ) := toDouble_natCast (by decide)
    rw [Nat.cast_one] at hone
    exact hone ▸ toDouble_mono
      (div_nonneg (toDouble_nonneg (Nat.cast_nonneg _)) (toDouble_nonneg (Nat.cast_nonneg _))) hquotient
  · exact le_rfl

theorem scrollFactor_mono (h : time ≤ time') :
    scrollFactor scrollTime time ≤ scrollFactor scrollTime time' := by
  rcases Nat.lt_or_ge time' scrollTime with hlt | hge
  · rw [scrollFactor, scrollFactor, if_pos (h.trans_lt hlt), if_pos hlt]
    have hnonneg : 0 ≤ toDouble scrollTime := toDouble_nonneg (Nat.cast_nonneg _)
    have hle : toDouble time ≤ toDouble time' := toDouble_mono (Nat.cast_nonneg _) (by exact_mod_cast h)
    exact toDouble_mono (div_nonneg (toDouble_nonneg (Nat.cast_nonneg _)) hnonneg)
      (div_le_div_of_nonneg_right hle hnonneg)
  · rw [scrollFactor.eq_1 scrollTime time', if_neg (by omega)]
    exact scrollFactor_le_one

theorem pixelsScrolled_mono {x y : ℚ} (h : 0 ≤ x) (hle : x ≤ y) :
    pixelsScrolled margin x ≤ pixelsScrolled margin y := by
  have hmargin : (0 : ℚ) ≤ margin := Nat.cast_nonneg _
  have hscaled := toDouble_mono (mul_nonneg hmargin h) (mul_le_mul_of_nonneg_left hle hmargin)
  refine Nat.floor_mono (toDouble_mono ?_ (by linarith))
  have hnonneg := toDouble_nonneg (mul_nonneg hmargin h)
  linarith

/-- At the end of the scrolling no pixel of the margin is left. -/
theorem pixelsScrolled_one (h : margin < 2 ^ 52) : pixelsScrolled margin 1 = margin := by
  rw [pixelsScrolled, mul_one, toDouble_natCast (by omega), toDouble_add_half h,
    Nat.floor_eq_iff (by positivity)]
  constructor <;> linarith

theorem pixelsScrolled_le (h : margin < 2 ^ 52) :
    pixelsScrolled margin (scrollFactor scrollTime time) ≤ margin :=
  (pixelsScrolled_mono scrollFactor_nonneg scrollFactor_le_one).trans_eq (pixelsScrolled_one h)

end Scroll

namespace ScrollingImageFrameGenerator

variable {ops : RectOps} {videos : List (List UInt8)} {sourceWidth sourceHeight : ℕ}
  {gen gen' : ScrollingImageFrameGenerator} {m : ℕ}

/-- The file generator has returned `m` frames. They are the images of the files in their order. -/
structure Sourced (videos : List (List UInt8)) (sourceWidth sourceHeight m : ℕ)
    (gen : ScrollingImageFrameGenerator) : Prop where
  files : YuvFileGenerator.Returned videos sourceWidth sourceHeight 1 m gen.fileGenerator
  numFrames : gen.numFrames = videos.length
  lt : gen.currentFrameNum < videos.length
  behind : (gen.currentFrameNum + 1) % videos.length = m % videos.length
  source : gen.currentSourceFrame.buffer = if m = 0 then none
    else videos[gen.currentFrameNum]?.map (frameAt sourceWidth sourceHeight · 0)

/-- The settings and what was shown last. -/
structure SameView (gen gen' : ScrollingImageFrameGenerator) : Prop where
  settings : gen'.toScrollSettings = gen.toScrollSettings
  prev : gen'.prevFrameNotScrolled = gen.prevFrameNotScrolled
  frame : gen'.currentFrame = gen.currentFrame

/-- One frame in each file. -/
def OneFrameEach (videos : List (List UInt8)) (width height : ℕ) : Prop :=
  ∀ bytes ∈ videos, bytes.length / frameSize width height = 1

theorem OneFrameEach.allFrames_eq {width height : ℕ} (h : OneFrameEach videos width height) :
    allFrames width height videos = videos.map (frameAt width height · 0) := by
  have hframes : videos.map (framesOf width height) =
      videos.map fun bytes => [frameAt width height bytes 0] := by
    refine List.map_congr_left fun bytes hbytes => ?_
    rw [framesOf, h bytes hbytes]
    rfl
  rw [allFrames, hframes, List.map_eq_flatMap (f := (frameAt width height · 0))]
  rfl

theorem sourced_step (hplay : YuvFileGenerator.Playable videos sourceWidth sourceHeight)
    (hone : OneFrameEach videos sourceWidth sourceHeight)
    (h : Sourced videos sourceWidth sourceHeight m gen) :
    ∃ read fileGenerator, gen.fileGenerator.nextFrame = some (read, fileGenerator) ∧
      read.updateRect = some (if m = 0 ∨ videos.length ≠ 1 then ⟨0, 0, sourceWidth, sourceHeight⟩
        else ⟨0, 0, 0, 0⟩) ∧
      Sourced videos sourceWidth sourceHeight (m + 1) { gen with
        currentSourceFrame := read
        currentFrameNum := (gen.currentFrameNum + 1) % gen.numFrames
        fileGenerator := fileGenerator } := by
  obtain ⟨fileGenerator, hread, hfiles⟩ := YuvFileGenerator.nextFrame_spec hplay Nat.one_pos h.files
  have hlt : m % videos.length < videos.length := Nat.mod_lt _ (Nat.zero_lt_of_lt h.lt)
  have hnum : (gen.currentFrameNum + 1) % gen.numFrames = m % videos.length := by
    rw [h.numFrames, h.behind]
  refine ⟨_, fileGenerator, hread, ?_, hfiles, h.numFrames, ?_, ?_, ?_⟩
  · rw [YuvFileGenerator.shown, hone.allFrames_eq, List.length_map, Nat.mod_one]
    simp
  · exact hnum ▸ hlt
  · show ((gen.currentFrameNum + 1) % gen.numFrames + 1) % videos.length = _
    rw [hnum, Nat.mod_add_mod]
  · show (YuvFileGenerator.shown videos sourceWidth sourceHeight 1 m).buffer = _
    rw [YuvFileGenerator.shown, hone.allFrames_eq, if_neg (Nat.succ_ne_zero m)]
    simp only [List.length_map, Nat.div_one, List.getElem?_map, hnum]

/-- The loop ends at the image. It reads if it starts at another one, and then the source has changed. -/
theorem readUntil_spec (hops : ops.Lawful)
    (hplay : YuvFileGenerator.Playable videos sourceWidth sourceHeight)
    (hone : OneFrameEach videos sourceWidth sourceHeight) {frameNum : ℕ} (hnum : frameNum < videos.length)
    {fuel d : ℕ} (hfuel : d ≤ fuel) (hd : (gen.currentFrameNum + d) % videos.length = frameNum)
    (h : Sourced videos sourceWidth sourceHeight m gen) (acc : UpdateRect) :
    ∃ acc' gen' m', readUntil ops frameNum fuel (acc, gen) = some (acc', gen') ∧
      Sourced videos sourceWidth sourceHeight m' gen' ∧ gen'.currentFrameNum = frameNum ∧
      SameView gen gen' ∧
      (m' = 0 ↔ m = 0 ∧ gen.currentFrameNum = frameNum) ∧
      ops.isEmpty acc' = (ops.isEmpty acc && decide (gen.currentFrameNum = frameNum)) := by
  induction fuel generalizing d m gen acc with
  | zero =>
    have hat : gen.currentFrameNum = frameNum := by
      obtain rfl : d = 0 := Nat.le_zero.mp hfuel
      rw [← hd, Nat.add_zero, Nat.mod_eq_of_lt h.lt]
    refine ⟨acc, gen, m, ?_, h, hat, ⟨rfl, rfl, rfl⟩, ?_, ?_⟩
    · rw [readUntil, if_pos hat]
    · simp [hat]
    · simp [hat]
  | succ fuel ih =>
    rcases eq_or_ne gen.currentFrameNum frameNum with hat | hne
    · refine ⟨acc, gen, m, ?_, h, hat, ⟨rfl, rfl, rfl⟩, ?_, ?_⟩
      · rw [readUntil, if_pos hat]
      · simp [hat]
      · simp [hat]
    · obtain ⟨read, fileGenerator, hread, hrect, hstep⟩ := sourced_step hplay hone h
      obtain ⟨e, rfl⟩ : ∃ e, d = e + 1 := by
        refine Nat.exists_eq_succ_of_ne_zero fun hzero => hne ?_
        rw [← hd, hzero, Nat.add_zero, Nat.mod_eq_of_lt h.lt]
      have hfull : ops.isEmpty (ops.union acc ⟨0, 0, sourceWidth, sourceHeight⟩) = false := by
        rw [hops.isEmpty_union, hops.isEmpty_full _ _ hplay.width_pos hplay.height_pos, Bool.and_false]
      have hlt := h.lt
      rw [if_pos (Or.inr (by omega))] at hrect
      obtain ⟨acc', gen', m', hloop, hsourced, hat, hview, hzero, hempty⟩ :=
        ih (d := e) (by omega)
          (by rw [← hd, h.numFrames, Nat.mod_add_mod]; congr 1; omega) hstep
          (ops.union acc ⟨0, 0, sourceWidth, sourceHeight⟩)
      refine ⟨acc', gen', m', ?_, hsourced, hat, ⟨hview.settings, hview.prev, hview.frame⟩, ?_, ?_⟩
      · rw [readUntil, if_neg hne, hread]
        simp [hrect, hloop]
      · simp [hzero, hne]
      · simp [hempty, hfull, hne]

/-- What is shown of an image. -/
def view (s : ScrollSettings) (videos : List (List UInt8)) (sourceWidth sourceHeight ms : ℕ) :
    Option VideoFrameBuffer :=
  videos[s.frameNum ms]?.map fun bytes =>
    s.crop (frameAt sourceWidth sourceHeight bytes 0) (scrollFactor s.scrollTime (s.timeIntoFrame ms))

/-- The frame at a time, with the time of the frame before it. -/
def frameAfter (s : ScrollSettings) (videos : List (List UInt8)) (sourceWidth sourceHeight : ℕ)
    (before : Option ℕ) (ms : ℕ) : VideoFrameData where
  buffer := view s videos sourceWidth sourceHeight ms
  updateRect := some (if before.any fun earlier => s.notScrolled earlier && s.notScrolled ms &&
      s.frameNum earlier = s.frameNum ms then ⟨0, 0, 0, 0⟩ else s.fullUpdate)

/-- A generator that has shown the frame of a time, or none yet. -/
structure Showed (s : ScrollSettings) (videos : List (List UInt8)) (sourceWidth sourceHeight : ℕ)
    (before : Option ℕ) (gen : ScrollingImageFrameGenerator) : Prop where
  settings : gen.toScrollSettings = s
  prev : gen.prevFrameNotScrolled = before.any s.notScrolled
  sourced : ∃ m, Sourced videos sourceWidth sourceHeight m gen ∧ (m = 0 ↔ before = none) ∧
    ∀ ms ∈ before, gen.currentFrameNum = s.frameNum ms

variable {s : ScrollSettings} {before : Option ℕ} {ms : ℕ}

/-- A frame fails only as the first one, of the last image. -/
theorem nextFrame_spec (ms : ℕ) (hops : ops.Lawful)
    (hplay : YuvFileGenerator.Playable videos sourceWidth sourceHeight)
    (hone : OneFrameEach videos sourceWidth sourceHeight) (hnum : s.numFrames = videos.length)
    (hgen : Showed s videos sourceWidth sourceHeight before gen) :
    if before = none ∧ s.frameNum ms = gen.currentFrameNum then
      gen.nextFrame ops (s.startTime + ms) = none
    else ∃ gen', gen.nextFrame ops (s.startTime + ms) =
        some (frameAfter s videos sourceWidth sourceHeight before ms, gen') ∧
      Showed s videos sourceWidth sourceHeight (some ms) gen' := by
  obtain ⟨rfl, hprev, m, hsourced, hm, hbefore⟩ := hgen
  have hlt := hsourced.lt
  have hframe : gen.frameNum ms < videos.length := by
    rw [ScrollSettings.frameNum, hnum]
    exact Nat.mod_lt _ (by omega)
  obtain ⟨d, hd, hreach⟩ := Rotation.exists_add_mod hlt hframe
  obtain ⟨acc', gen', m', hloop, hsourced', hat, hview, hzero, hempty⟩ :=
    readUntil_spec hops hplay hone hframe (hnum ▸ hd) hreach hsourced ⟨0, 0, 0, 0⟩
  rw [hops.isEmpty_zero, Bool.true_and] at hempty
  have hms : gen.startTime + ms - gen.startTime = ms := Nat.add_sub_cancel_left _ _
  split
  · rename_i hfirst
    have hnone : gen'.currentSourceFrame.buffer = none := by
      rw [hsourced'.source, if_pos (hzero.mpr ⟨hm.mpr hfirst.1, hfirst.2.symm⟩)]
    simp [nextFrame, hms, updateSourceFrame, hloop, cropSourceToScrolledImage, hnone]
  · rename_i hlater
    have hread : m' ≠ 0 := fun hm' => hlater ⟨hm.mp (hzero.mp hm').1, (hzero.mp hm').2.symm⟩
    have hbytes := List.getElem?_eq_getElem hframe
    have hsource : gen'.currentSourceFrame.buffer =
        some (frameAt sourceWidth sourceHeight videos[gen.frameNum ms] 0) := by
      rw [hsourced'.source, if_neg hread, hat, hbytes]
      rfl
    have hprev' : gen'.prevFrameNotScrolled = before.any gen.notScrolled := hview.prev.trans hprev
    have hsame : (before.any fun earlier => gen.notScrolled earlier && gen.notScrolled ms &&
        decide (gen.frameNum earlier = gen.frameNum ms)) =
        (before.any gen.notScrolled && gen.notScrolled ms &&
          decide (gen.currentFrameNum = gen.frameNum ms)) := by
      cases before with
      | none => rfl
      | some earlier => rw [hbefore earlier rfl, Option.any_some, Option.any_some]
    refine ⟨{ gen' with
      currentSourceFrame := { gen'.currentSourceFrame with updateRect := some acc' }
      currentFrame := frameAfter gen.toScrollSettings videos sourceWidth sourceHeight before ms
      prevFrameNotScrolled := gen.notScrolled ms }, ?_,
      hview.settings, rfl, m', ⟨hsourced'.files, hsourced'.numFrames, hsourced'.lt, hsourced'.behind,
        hsourced'.source⟩, ?_, ?_⟩
    · simp only [nextFrame, hms, updateSourceFrame, hloop, cropSourceToScrolledImage, hsource,
        Option.bind_eq_bind, Option.bind_some, Option.pure_def, hempty, hview.settings, hprev', frameAfter,
        view, hbytes, Option.map_some, hsame]
      cases before.any gen.notScrolled && gen.notScrolled ms <;> simp
    · exact iff_of_false hread (Option.some_ne_none ms)
    · intro t ht
      obtain rfl : ms = t := Option.some.inj ht
      exact hat

/-- A run that does not begin with the last image. -/
theorem nextFrames_spec (hops : ops.Lawful)
    (hplay : YuvFileGenerator.Playable videos sourceWidth sourceHeight)
    (hone : OneFrameEach videos sourceWidth sourceHeight) (hnum : s.numFrames = videos.length)
    (times : List ℕ)
    (hgen : Showed s videos sourceWidth sourceHeight before gen)
    (hfirst : before = none → ∀ ms ∈ times.head?, s.frameNum ms ≠ gen.currentFrameNum) :
    ∃ gen', gen.nextFrames ops (times.map (s.startTime + ·)) = some
      (List.zipWith (frameAfter s videos sourceWidth sourceHeight) (before :: times.map some) times,
        gen') := by
  induction times generalizing gen before with
  | nil => exact ⟨gen, rfl⟩
  | cons ms times ih =>
    have hstep := nextFrame_spec ms hops hplay hone hnum hgen
    rw [if_neg (fun hfail => hfirst hfail.1 ms rfl hfail.2)] at hstep
    obtain ⟨gen', hframe, hgen'⟩ := hstep
    obtain ⟨last, hframes⟩ := ih hgen' (fun hnone => absurd hnone (Option.some_ne_none ms))
    refine ⟨last, ?_⟩
    rw [List.map_cons, nextFrames, hframe, Option.bind_eq_bind, Option.bind_some]
    simp only [hframes]
    rfl

/-- The pixels of a frame are those of the image from a row and a column on. -/
structure Window (image frame : VideoFrameBuffer) (x y : ℕ) : Prop where
  pixelsY : ∀ row < frame.height, ∀ col < frame.width, ∃ v,
    frame.dataY[row * frame.strideY + col]? = some v ∧
      image.dataY[(row + y) * image.strideY + (col + x)]? = some v
  pixelsU : ∀ row < (frame.height + 1) / 2, ∀ col < (frame.width + 1) / 2, ∃ v,
    frame.dataU[row * frame.strideU + col]? = some v ∧
      image.dataU[(row + y / 2) * image.strideU + (col + x / 2)]? = some v
  pixelsV : ∀ row < (frame.height + 1) / 2, ∀ col < (frame.width + 1) / 2, ∃ v,
    frame.dataV[row * frame.strideV + col]? = some v ∧
      image.dataV[(row + y / 2) * image.strideV + (col + x / 2)]? = some v

theorem pixel_of_plane {data : List UInt8} {stride rows x y row col : ℕ}
    (hlength : data.length = stride * rows) (hrow : row + y < rows) (hcol : col + x < stride) : ∃ v,
    (data.drop (stride * y + x))[row * stride + col]? = some v ∧
      data[(row + y) * stride + (col + x)]? = some v := by
  have hplace : stride * y + x + (row * stride + col) = (row + y) * stride + (col + x) := by ring
  have hlt : (row + y) * stride + (col + x) < data.length := by
    calc (row + y) * stride + (col + x) < (row + y + 1) * stride := by rw [Nat.succ_mul]; omega
      _ ≤ rows * stride := Nat.mul_le_mul_right _ hrow
      _ = data.length := by rw [hlength, Nat.mul_comm]
  rw [List.getElem?_drop, hplace]
  exact ⟨_, List.getElem?_eq_getElem hlt, List.getElem?_eq_getElem hlt⟩

theorem length_planes {width height : ℕ} {bytes : List UInt8}
    (h : frameSize width height ≤ bytes.length) :
    (frameAt width height bytes 0).dataY.length = width * height ∧
      (frameAt width height bytes 0).dataU.length = (width + 1) / 2 * ((height + 1) / 2) ∧
      (frameAt width height bytes 0).dataV.length = (width + 1) / 2 * ((height + 1) / 2) := by
  unfold frameSize sizeY sizeUv at h
  simp only [frameAt, Nat.zero_mul, List.drop_zero, List.length_take, List.length_drop, sizeY, sizeUv]
  omega

theorem window_crop {width height : ℕ} {bytes : List UInt8} {factor : ℚ}
    (h : frameSize width height ≤ bytes.length)
    (hx : pixelsScrolled (width - s.targetWidth) factor + s.targetWidth ≤ width)
    (hy : pixelsScrolled (height - s.targetHeight) factor + s.targetHeight ≤ height) :
    Window (frameAt width height bytes 0) (s.crop (frameAt width height bytes 0) factor)
      (pixelsScrolled (width - s.targetWidth) factor)
      (pixelsScrolled (height - s.targetHeight) factor) := by
  obtain ⟨hY, hU, hV⟩ := length_planes h
  constructor
  · intro row hrow col hcol
    have hrow : row < s.targetHeight := hrow
    have hcol : col < s.targetWidth := hcol
    exact pixel_of_plane (x := pixelsScrolled (width - s.targetWidth) factor)
      (y := pixelsScrolled (height - s.targetHeight) factor) hY (by omega) (by show _ < width; omega)
  · intro row hrow col hcol
    have hrow : row < (s.targetHeight + 1) / 2 := hrow
    have hcol : col < (s.targetWidth + 1) / 2 := hcol
    exact pixel_of_plane (x := pixelsScrolled (width - s.targetWidth) factor / 2)
      (y := pixelsScrolled (height - s.targetHeight) factor / 2) hU (by omega)
      (by show _ < (width + 1) / 2; omega)
  · intro row hrow col hcol
    have hrow : row < (s.targetHeight + 1) / 2 := hrow
    have hcol : col < (s.targetWidth + 1) / 2 := hcol
    exact pixel_of_plane (x := pixelsScrolled (width - s.targetWidth) factor / 2)
      (y := pixelsScrolled (height - s.targetHeight) factor / 2) hV (by omega)
      (by show _ < (width + 1) / 2; omega)

/-- What the constructor demands, and offsets that an `int` can hold. -/
structure Scrollable (sourceWidth sourceHeight targetWidth targetHeight scrollTime pauseTime : ℕ) :
    Prop where
  width_le : targetWidth ≤ sourceWidth
  height_le : targetHeight ≤ sourceHeight
  time_pos : 0 < scrollTime + pauseTime
  offset_lt : sourceWidth * sourceHeight < 2 ^ 31

theorem showed_create (hplay : YuvFileGenerator.Playable videos sourceWidth sourceHeight)
    (start targetWidth targetHeight scrollTime pauseTime : ℕ) :
    Showed ⟨start, scrollTime, pauseTime, videos.length, targetWidth, targetHeight⟩ videos sourceWidth
      sourceHeight none (create start (videos.map fun bytes => ⟨bytes, 0⟩) sourceWidth sourceHeight
        targetWidth targetHeight scrollTime pauseTime) := by
  have hpos := List.length_pos_of_ne_nil hplay.videos_ne_nil
  have hlength : (videos.map fun bytes => File.mk bytes 0).length = videos.length := List.length_map _
  refine ⟨by rw [create, hlength], rfl, 0, ⟨YuvFileGenerator.returned_create hplay, hlength, ?_, ?_, rfl⟩,
    iff_of_true rfl rfl, fun ms hms => absurd hms.symm (Option.some_ne_none ms)⟩
  · rw [create, hlength]
    exact Nat.sub_one_lt_of_lt hpos
  · rw [create, hlength, Nat.sub_add_cancel hpos, Nat.mod_self, Nat.zero_mod]

/-- The frame of a run with the frame before it. -/
theorem getElem?_frames {times : List ℕ} {k : ℕ} {frame : VideoFrameData} (hms : times[k]? = some ms)
    (hframe : (List.zipWith (frameAfter s videos sourceWidth sourceHeight) (none :: times.map some)
      times)[k]? = some frame) :
    ∃ before, frame = frameAfter s videos sourceWidth sourceHeight before ms ∧
      ∀ earlier ∈ before, ∃ j b, k = j + 1 ∧
        (List.zipWith (frameAfter s videos sourceWidth sourceHeight) (none :: times.map some) times)[j]? =
          some (frameAfter s videos sourceWidth sourceHeight b earlier) := by
  have hlt := (List.getElem?_eq_some_iff.mp hms).1
  have hat : ∀ j < times.length, ∃ b, (none :: times.map some)[j]? = some b :=
    fun j hj => ⟨_, List.getElem?_eq_getElem (by simp; omega)⟩
  obtain ⟨before, hbefore⟩ := hat k hlt
  rw [List.getElem?_zipWith, hbefore, hms, Option.some.injEq] at hframe
  refine ⟨before, hframe.symm, fun earlier hearlier => ?_⟩
  obtain rfl : before = some earlier := hearlier
  cases k with
  | zero => simp at hbefore
  | succ j =>
    obtain ⟨b, hb⟩ := hat j (by omega)
    have hj : times[j]? = some earlier := by simpa using hbefore
    exact ⟨j, b, rfl, by rw [List.getElem?_zipWith, hb, hj]⟩

theorem view_eq_of_notScrolled {earlier : ℕ} (h : s.notScrolled earlier = true)
    (h' : s.notScrolled ms = true) (hnum : s.frameNum earlier = s.frameNum ms) :
    view s videos sourceWidth sourceHeight earlier = view s videos sourceWidth sourceHeight ms := by
  have hone : ∀ ms, s.notScrolled ms = true → scrollFactor s.scrollTime (s.timeIntoFrame ms) = 1 := by
    intro ms hms
    rw [scrollFactor, if_neg (not_lt.mpr (of_decide_eq_true hms))]
  rw [view, view, hnum, hone earlier h, hone ms h']

/-- The run fails if its first frame belongs to the last image. Otherwise each frame is a window of the
image that belongs to its time, inside of this image. The window only moves forward, and when the
scrolling is over it is at the end. A frame that is not updated is the frame before it. -/
theorem images_are_scrolled (start : ℕ) {targetWidth targetHeight scrollTime pauseTime : ℕ}
    (hops : ops.Lawful) (hplay : YuvFileGenerator.Playable videos sourceWidth sourceHeight)
    (hone : OneFrameEach videos sourceWidth sourceHeight)
    (hscroll : Scrollable sourceWidth sourceHeight targetWidth targetHeight scrollTime pauseTime)
    (hgen : gen = create start (videos.map fun bytes => ⟨bytes, 0⟩) sourceWidth sourceHeight targetWidth
      targetHeight scrollTime pauseTime) :
    ∃ x y : ℕ → ℕ, Monotone x ∧ Monotone y ∧
      (∀ time, x time ≤ sourceWidth - targetWidth ∧ y time ≤ sourceHeight - targetHeight) ∧
      (∀ time, scrollTime ≤ time →
        x time = sourceWidth - targetWidth ∧ y time = sourceHeight - targetHeight) ∧
      ∀ first times,
        if first / (scrollTime + pauseTime) % videos.length = videos.length - 1 then
          gen.nextFrames ops ((first :: times).map (start + ·)) = none
        else ∃ frames gen', gen.nextFrames ops ((first :: times).map (start + ·)) = some (frames, gen') ∧
          frames.length = (first :: times).length ∧
          ∀ k ms frame, (first :: times)[k]? = some ms → frames[k]? = some frame →
            ∃ bytes shown, videos[ms / (scrollTime + pauseTime) % videos.length]? = some bytes ∧
              frame.buffer = some shown ∧ shown.width = targetWidth ∧ shown.height = targetHeight ∧
              Window (frameAt sourceWidth sourceHeight bytes 0) shown (x (ms % (scrollTime + pauseTime)))
                (y (ms % (scrollTime + pauseTime))) ∧
              (frame.updateRect = some ⟨0, 0, targetWidth, targetHeight⟩ ∨
                frame.updateRect = some ⟨0, 0, 0, 0⟩ ∧
                  ∃ j before, k = j + 1 ∧ frames[j]? = some before ∧ before.buffer = frame.buffer) := by
  have hwidth : sourceWidth - targetWidth < 2 ^ 52 := by
    have hle := Nat.le_mul_of_pos_right sourceWidth hplay.height_pos
    have hlt := hscroll.offset_lt
    omega
  have hheight : sourceHeight - targetHeight < 2 ^ 52 := by
    have hle := Nat.le_mul_of_pos_left sourceHeight hplay.width_pos
    have hlt := hscroll.offset_lt
    omega
  have hmono : ∀ margin, Monotone fun time => pixelsScrolled margin (scrollFactor scrollTime time) :=
    fun margin time time' hle => pixelsScrolled_mono scrollFactor_nonneg (scrollFactor_mono hle)
  have hend : ∀ time margin, scrollTime ≤ time → margin < 2 ^ 52 →
      pixelsScrolled margin (scrollFactor scrollTime time) = margin := by
    intro time margin hle hlt
    rw [scrollFactor, if_neg (by omega), pixelsScrolled_one hlt]
  refine ⟨_, _, hmono (sourceWidth - targetWidth), hmono (sourceHeight - targetHeight),
    fun time => ⟨pixelsScrolled_le hwidth, pixelsScrolled_le hheight⟩,
    fun time hle => ⟨hend time _ hle hwidth, hend time _ hle hheight⟩, fun first times => ?_⟩
  have hlast : gen.currentFrameNum = videos.length - 1 := by
    rw [hgen, create, List.length_map]
  have hshowed := showed_create hplay start targetWidth targetHeight scrollTime pauseTime
  rw [← hgen] at hshowed
  split
  · rename_i hat
    have hfail := nextFrame_spec first hops hplay hone rfl hshowed
    rw [if_pos ⟨rfl, hat.trans hlast.symm⟩] at hfail
    rw [List.map_cons, nextFrames, hfail]
    rfl
  · rename_i hother
    obtain ⟨gen', hframes⟩ := nextFrames_spec hops hplay hone rfl (first :: times) hshowed
      (fun _ ms hms => by
        obtain rfl : first = ms := Option.some.inj hms
        rw [hlast]
        exact hother)
    refine ⟨_, gen', hframes, by simp, fun k ms frame hms hframe => ?_⟩
    obtain ⟨before, rfl, hearlier⟩ := getElem?_frames hms hframe
    have hnum : ms / (scrollTime + pauseTime) % videos.length < videos.length :=
      Nat.mod_lt _ (List.length_pos_of_ne_nil hplay.videos_ne_nil)
    have hbytes := List.getElem?_eq_getElem hnum
    have hview : view ⟨start, scrollTime, pauseTime, videos.length, targetWidth, targetHeight⟩ videos
        sourceWidth sourceHeight ms = some _ := congrArg (Option.map _) hbytes
    refine ⟨_, _, hbytes, hview, rfl, rfl,
      window_crop (hplay.frames_le _ (List.getElem_mem hnum)) ?_ ?_, ?_⟩
    · exact (Nat.add_le_add_right (pixelsScrolled_le hwidth) _).trans
        (Nat.sub_add_cancel hscroll.width_le).le
    · exact (Nat.add_le_add_right (pixelsScrolled_le hheight) _).trans
        (Nat.sub_add_cancel hscroll.height_le).le
    · simp only [frameAfter]
      split
      · rename_i hsame
        obtain ⟨earlier, rfl, hboth⟩ := (Option.any_eq_true _ _).mp hsame
        rw [Bool.and_eq_true, Bool.and_eq_true, decide_eq_true_eq] at hboth
        obtain ⟨⟨hstill, hstill'⟩, hnum⟩ := hboth
        obtain ⟨j, b, rfl, hj⟩ := hearlier earlier rfl
        exact Or.inr ⟨rfl, j, _, rfl, hj, view_eq_of_notScrolled hstill hstill' hnum⟩
      · exact Or.inl rfl

/-- The smallest rectangle that holds both. -/
def updateRectOps : RectOps where
  isEmpty r := r.width == 0 && r.height == 0
  union r r' :=
    if r'.width = 0 ∧ r'.height = 0 then r else if r.width = 0 ∧ r.height = 0 then r' else
      { offsetX := min r.offsetX r'.offsetX
        offsetY := min r.offsetY r'.offsetY
        width := max (r.offsetX + r.width) (r'.offsetX + r'.width) - min r.offsetX r'.offsetX
        height := max (r.offsetY + r.height) (r'.offsetY + r'.height) - min r.offsetY r'.offsetY }

theorem updateRectOps_lawful : updateRectOps.Lawful where
  isEmpty_zero := rfl
  isEmpty_full := by
    intro width height hwidth _
    simp [updateRectOps, Nat.ne_of_gt hwidth]
  isEmpty_union := by
    intro r r'
    rw [Bool.eq_iff_iff]
    simp only [updateRectOps, Bool.and_eq_true, beq_iff_eq]
    split
    · rename_i h
      simp [h]
    · split
      · rename_i h
        simp [h]
      · simp only
        omega

/-- One image alone is never shown. Of two, the first frame is of the first. -/
theorem one_image_fails_and_two_are_scrolled :
    (create 100 [⟨[1, 2, 3, 4, 5, 6], 0⟩] 2 2 1 1 10 10).nextFrames updateRectOps [105] = none ∧
      ∃ frames gen', (create 100 [⟨[1, 2, 3, 4, 5, 6], 0⟩, ⟨[7, 8, 9, 10, 11, 12], 0⟩] 2 2 1 1 10
        10).nextFrames updateRectOps [105, 112, 115, 125] = some (frames, gen') ∧ frames.length = 4 := by
  have hscroll : Scrollable 2 2 1 1 10 10 := ⟨by decide, by decide, by decide, by decide⟩
  constructor
  · have hone : OneFrameEach [[1, 2, 3, 4, 5, 6]] 2 2 := by
      unfold OneFrameEach
      decide
    obtain ⟨_, _, -, -, -, -, h⟩ := images_are_scrolled 100 updateRectOps_lawful
      ⟨by decide, by decide, by decide, by decide, by decide, by decide⟩ hone hscroll rfl
    exact h 5 []
  · have hone : OneFrameEach [[1, 2, 3, 4, 5, 6], [7, 8, 9, 10, 11, 12]] 2 2 := by
      unfold OneFrameEach
      decide
    obtain ⟨_, _, -, -, -, -, h⟩ := images_are_scrolled 100 updateRectOps_lawful
      ⟨by decide, by decide, by decide, by decide, by decide, by decide⟩ hone hscroll rfl
    obtain ⟨frames, gen', hframes, hlength, -⟩ := h 5 [12, 15, 25]
    exact ⟨frames, gen', hframes, hlength⟩

end ScrollingImageFrameGenerator

end WebrtcGccNs3.Video
