import WebrtcGccNs3.Video.Squares

/-!
# Slides

`SlideGenerator` draws a slide with many squares and shows it for a number of frames. A
square is at most a quarter as long as the frame is wide, but it is not asked whether it is
higher than the frame.
-/
namespace WebrtcGccNs3.Video

structure SlideGenerator (R : Type) where
  width : ℕ
  height : ℕ
  frameDisplayCount : ℕ
  currentDisplayCount : ℕ
  random : R
  canvas : Option Canvas

namespace SlideGenerator

variable {R : Type} (ops : RandomOps R)

def create (width height frameRepeatCount : ℕ) : SlideGenerator R where
  width := width
  height := height
  frameDisplayCount := frameRepeatCount
  currentDisplayCount := 0
  random := ops.seeded 1234
  canvas := none

/-- The length of later squares is limited so that they do not overwrite the previous ones too much.
`left` of the squares are not drawn yet. -/
def drawSquare (width height squareNum left : ℕ) (canvas : Canvas) (random : R) : Option (Canvas × R) := do
  let drawn ← ops.rand random 1 (if width > 4 then width / 4 else 1)
  let length := drawn.1 * left / squareNum
  let x ← ops.rand drawn.2 0 (width - length)
  let y ← ops.rand x.2 0 (height - length)
  let yuvY ← ops.rand y.2 0 255
  let yuvU ← ops.rand yuvY.2 0 255
  let yuvV ← ops.rand yuvU.2 0 255
  let canvas ← drawPatch canvas { x := x.1, y := y.1, length := length, yuvY := UInt8.ofNat yuvY.1,
                                   yuvU := UInt8.ofNat yuvU.1, yuvV := UInt8.ofNat yuvV.1, yuvA := 0 }
  return (canvas, yuvV.2)

def drawSquares (width height squareNum : ℕ) : ℕ → Canvas → R → Option (Canvas × R)
  | 0, canvas, random => some (canvas, random)
  | left + 1, canvas, random => do
    let drawn ← drawSquare ops width height squareNum (left + 1) canvas random
    drawSquares width height squareNum left drawn.1 drawn.2

def generateNewFrame (gen : SlideGenerator R) : Option (SlideGenerator R) := do
  let size ← ops.rand gen.random 0 3
  let squareNum := 1 <<< (4 + size.1 * 2)
  let drawn ← drawSquares ops gen.width gen.height squareNum squareNum
    (createCanvas gen.width gen.height false) size.2
  return { gen with canvas := some drawn.1, random := drawn.2 }

def nextFrame (gen : SlideGenerator R) : Option (Option Canvas × SlideGenerator R) := do
  let gen ← if gen.currentDisplayCount = 0 then gen.generateNewFrame ops else some gen
  let count := gen.currentDisplayCount + 1
  return (gen.canvas,
    { gen with currentDisplayCount := if count ≥ gen.frameDisplayCount then 0 else count })

/-- The next `n` frames. -/
def nextFrames (gen : SlideGenerator R) : ℕ → Option (List (Option Canvas) × SlideGenerator R)
  | 0 => some ([], gen)
  | n + 1 => do
    let before ← gen.nextFrames n
    let frame ← before.2.nextFrame ops
    return (before.1 ++ [frame.1], frame.2)

end SlideGenerator

section Slides

variable {R : Type} {ops : RandomOps R} {width height : ℕ} {canvas : Canvas}

/-- The size of a slide, for which no `int` overflows when it is drawn. -/
structure SlideSize (width height : ℕ) : Prop extends SquareGenerator.FrameSize width height where
  wide : width < 2 ^ 23

namespace SlideGenerator

section Drawn

variable (ops : RandomOps R) (width height : ℕ)

/-- The square that random numbers give, with `left` of `squareNum` not drawn yet. -/
def drawnSquare (squareNum left : ℕ) (random : R) : Patch × R :=
  let drawn := ops.next random 1 (if width > 4 then width / 4 else 1)
  let length := drawn.1 * left / squareNum
  let x := ops.next drawn.2 0 (width - length)
  let y := ops.next x.2 0 (height - length)
  let yuvY := ops.next y.2 0 255
  let yuvU := ops.next yuvY.2 0 255
  let yuvV := ops.next yuvU.2 0 255
  ({ x := x.1, y := y.1, length := length, yuvY := UInt8.ofNat yuvY.1,
     yuvU := UInt8.ofNat yuvU.1, yuvV := UInt8.ofNat yuvV.1, yuvA := 0 }, yuvV.2)

def drawnSquares (squareNum : ℕ) : ℕ → R → List Patch × R
  | 0, random => ([], random)
  | left + 1, random =>
    let square := drawnSquare ops width height squareNum (left + 1) random
    let rest := drawnSquares squareNum left square.2
    (square.1 :: rest.1, rest.2)

/-- The squares of a slide, 16, 64, 256 or 1024 of them. -/
def drawnSlide (random : R) : List Patch × R :=
  let size := ops.next random 0 3
  drawnSquares ops width height (1 <<< (4 + size.1 * 2)) (1 <<< (4 + size.1 * 2)) size.2

/-- The random numbers in front of a slide. -/
def randomOf : ℕ → R
  | 0 => ops.seeded 1234
  | k + 1 => (drawnSlide ops width height (randomOf k)).2

/-- The squares of the slide with this number. -/
def squaresOf (k : ℕ) : List Patch := (drawnSlide ops width height (randomOf ops width height k)).1

end Drawn

theorem length_drawnSquares (squareNum left : ℕ) (random : R) :
    (drawnSquares ops width height squareNum left random).1.length = left := by
  induction left generalizing random with
  | zero => rfl
  | succ left ih => exact congrArg Nat.succ (ih _)

/-- The longest square of a slide is no longer than the frame is high. -/
theorem drawSquare_spec (hops : ops.Lawful) (hwidth : 0 < width) (hheight : 0 < height)
    (hfit : width / 4 ≤ height) {squareNum left : ℕ} (hleft : left ≤ squareNum)
    (hsized : canvas.Sized width height) (random : R) :
    ∃ canvas',
      drawSquare ops width height squareNum left canvas random =
        some (canvas', (drawnSquare ops width height squareNum left random).2) ∧
      drawPatch canvas (drawnSquare ops width height squareNum left random).1 = some canvas' ∧
      canvas'.Sized width height ∧
      (drawnSquare ops width height squareNum left random).1.Inside width height := by
  have hrand : ∀ (random : R) (low high : ℕ), low ≤ high →
      ops.rand random low high = some (ops.next random low high) := fun random low high hle =>
    if_pos (by exact_mod_cast hle)
  -- the length is drawn first, and the bounds of the place depend on it
  have hmost : 1 ≤ if width > 4 then width / 4 else 1 := by
    split <;> omega
  have hlength : ops.rand random 1 (if width > 4 then width / 4 else 1) =
      some (ops.next random 1 (if width > 4 then width / 4 else 1)) := by
    rw [← hrand random 1 _ hmost]
    split <;> rfl
  have hle := hops.next_le random _ _ hmost
  have hscaled : ∀ length : ℕ, length * left / squareNum ≤ length := by
    intro length
    rcases Nat.eq_zero_or_pos squareNum with rfl | hpos
    · rw [Nat.div_zero]
      exact Nat.zero_le _
    · exact Nat.div_le_of_le_mul ((Nat.mul_le_mul_left _ hleft).trans_eq (Nat.mul_comm _ _))
  have hboth : (drawnSquare ops width height squareNum left random).1.length ≤ width ∧
      (drawnSquare ops width height squareNum left random).1.length ≤ height := by
    have hless := hscaled (ops.next random 1 (if width > 4 then width / 4 else 1)).1
    have hmost : (if width > 4 then width / 4 else 1) ≤ min width height := by
      split <;> omega
    exact le_min_iff.mp (hless.trans (hle.trans hmost))
  obtain ⟨hlongX, hlongY⟩ := hboth
  have hplace : ∀ (random : R) {length most : ℕ}, length ≤ most →
      ops.rand random 0 ((most : ℤ) - length) = some (ops.next random 0 (most - length)) := by
    intro random length most hle
    rw [← Nat.cast_sub hle]
    exact hrand random 0 _ (Nat.zero_le _)
  have hinside : (drawnSquare ops width height squareNum left random).1.Inside width height := by
    constructor
    · exact Nat.add_le_of_le_sub hlongX (hops.next_le _ 0 _ (Nat.zero_le _))
    · exact Nat.add_le_of_le_sub hlongY (hops.next_le _ 0 _ (Nat.zero_le _))
  obtain ⟨canvas', hdrawn, hsized', -⟩ := drawPatch_spec hinside hsized
  refine ⟨canvas', ?_, hdrawn, hsized', hinside⟩
  have hcolour : ∀ random : R, ops.rand random 0 255 = some (ops.next random 0 255) := fun random =>
    hrand random 0 255 (by decide)
  rw [drawSquare, hlength, Option.bind_eq_bind, Option.bind_some]
  change (ops.rand _ 0
    ((width : ℤ) - (drawnSquare ops width height squareNum left random).1.length)).bind _ = _
  rw [hplace _ hlongX, Option.bind_some]
  change (ops.rand _ 0
    ((height : ℤ) - (drawnSquare ops width height squareNum left random).1.length)).bind _ = _
  rw [hplace _ hlongY, Option.bind_some]
  simp only [hcolour, Option.bind_eq_bind, Option.bind_some]
  change (drawPatch canvas (drawnSquare ops width height squareNum left random).1).bind _ = _
  rw [hdrawn]
  rfl

theorem drawSquares_spec (hops : ops.Lawful) (hwidth : 0 < width) (hheight : 0 < height)
    (hfit : width / 4 ≤ height) {squareNum left : ℕ} (hleft : left ≤ squareNum)
    (hsized : canvas.Sized width height) (random : R) :
    ∃ canvas',
      drawSquares ops width height squareNum left canvas random =
        some (canvas', (drawnSquares ops width height squareNum left random).2) ∧
      (drawnSquares ops width height squareNum left random).1.foldlM drawPatch canvas = some canvas' ∧
      ∀ p ∈ (drawnSquares ops width height squareNum left random).1, p.Inside width height := by
  induction left generalizing canvas random with
  | zero => exact ⟨canvas, rfl, rfl, fun p hp => absurd hp List.not_mem_nil⟩
  | succ left ih =>
    obtain ⟨first, hfirst, hpatch, hsized', hinside⟩ :=
      drawSquare_spec hops hwidth hheight hfit hleft hsized random
    obtain ⟨last, hlast, hpatches, hall⟩ := ih (by omega) hsized'
      (drawnSquare ops width height squareNum (left + 1) random).2
    refine ⟨last, ?_, ?_, ?_⟩
    · simp [drawSquares, hfirst, hlast, drawnSquares]
    · rw [drawnSquares, List.foldlM_cons, hpatch]
      exact hpatches
    · rw [drawnSquares, List.forall_mem_cons]
      exact ⟨hinside, hall⟩

/-- The frame shows the slide with this number, whose squares are inside. -/
structure SlideOf (ops : RandomOps R) (width height k : ℕ) (frame : Canvas) : Prop where
  count : (squaresOf ops width height k).length ∈ [16, 64, 256, 1024]
  inside : ∀ p ∈ squaresOf ops width height k, p.Inside width height
  shows : Shows width height (squaresOf ops width height k) frame

theorem generateNewFrame_spec (hops : ops.Lawful) {gen : SlideGenerator R} {k : ℕ} (hwidth : 0 < width)
    (hheight : 0 < height) (hfit : width / 4 ≤ height) (hgen : gen.width = width ∧ gen.height = height)
    (hrandom : gen.random = randomOf ops width height k) :
    ∃ frame, gen.generateNewFrame ops = some { gen with
        canvas := some frame
        random := randomOf ops width height (k + 1) } ∧
      SlideOf ops width height k frame := by
  obtain ⟨rfl, rfl⟩ := hgen
  have hle := hops.next_le gen.random 0 3 (by decide)
  have hsize : ops.rand gen.random 0 3 = some (ops.next gen.random 0 3) := if_pos (by decide)
  have hsized := sized_createCanvas gen.width gen.height false
  obtain ⟨frame, hdrawn, hpatches, hinside⟩ := drawSquares_spec hops hwidth hheight hfit
    (le_refl (1 <<< (4 + (ops.next gen.random 0 3).1 * 2))) hsized (ops.next gen.random 0 3).2
  obtain ⟨_, hpatches', hsized', hpainted⟩ := drawPatches_spec hinside hsized
  obtain rfl := Option.some.inj (hpatches.symm.trans hpatches')
  refine ⟨frame, ?_, ?_, ?_, ?_⟩
  · rw [randomOf, ← hrandom]
    simp [generateNewFrame, hsize, hdrawn, drawnSlide]
  · rw [squaresOf, ← hrandom, drawnSlide, length_drawnSquares]
    generalize (ops.next gen.random 0 3).1 = size at hle
    have hcases : size = 0 ∨ size = 1 ∨ size = 2 ∨ size = 3 := by omega
    rcases hcases with rfl | rfl | rfl | rfl <;> decide
  · rw [squaresOf, ← hrandom]
    exact hinside
  · rw [squaresOf, ← hrandom]
    exact (hpainted.shows hsized').1

/-- A generator that has returned the given frames: each slide as often as it should be. -/
structure Returned (ops : RandomOps R) (width height frameRepeatCount : ℕ) (frames : List (Option Canvas))
    (gen : SlideGenerator R) : Prop where
  width_eq : gen.width = width
  height_eq : gen.height = height
  repeat_eq : gen.frameDisplayCount = frameRepeatCount
  count : gen.currentDisplayCount = frames.length % frameRepeatCount
  random_eq : gen.random = randomOf ops width height
    (frames.length / frameRepeatCount + if frames.length % frameRepeatCount = 0 then 0 else 1)
  last : frames ≠ [] → frames.getLast? = some gen.canvas
  slides : ∀ k frame, frames[k]? = some frame →
    ∃ slide, frame = some slide ∧ SlideOf ops width height (k / frameRepeatCount) slide
  again : ∀ k, k + 1 < frames.length → (k + 1) % frameRepeatCount ≠ 0 → frames[k + 1]? = frames[k]?

/-- Which slide the next frame is the first of, if it is the first of one. -/
theorem slide_succ {n r : ℕ} (hr : 0 < r) :
    (n + 1) / r + (if (n + 1) % r = 0 then 0 else 1) = n / r + 1 := by
  have hmod := Nat.mod_lt n hr
  have hdiv := Nat.div_add_mod n r
  have hnext : n + 1 = (n % r + 1) + r * (n / r) := by omega
  rcases Nat.lt_or_ge (n % r + 1) r with hlt | hge
  · rw [hnext, Nat.add_mul_div_left _ _ hr, Nat.add_mul_mod_self_left, Nat.mod_eq_of_lt hlt,
      Nat.div_eq_of_lt hlt, if_neg (Nat.succ_ne_zero _), Nat.zero_add]
  · have hend : n % r + 1 = r := by omega
    rw [hnext, hend, Nat.add_mul_div_left _ _ hr, Nat.add_mul_mod_self_left, Nat.mod_self,
      Nat.div_self hr, if_pos rfl]
    omega

/-- The frame behind them is of the slide that is due, and the last one again if that was not shown
often enough. -/
theorem Returned.append {frameRepeatCount : ℕ} {frames : List (Option Canvas)}
    {gen : SlideGenerator R} {frame : Option Canvas} (hr : 0 < frameRepeatCount)
    (h : Returned ops width height frameRepeatCount frames gen)
    (hslide : ∃ slide, frame = some slide ∧
      SlideOf ops width height (frames.length / frameRepeatCount) slide)
    (hsame : frames.length % frameRepeatCount ≠ 0 → frame = gen.canvas) :
    Returned ops width height frameRepeatCount (frames ++ [frame]) { gen with
      canvas := frame
      random := randomOf ops width height (frames.length / frameRepeatCount + 1)
      currentDisplayCount := (frames.length + 1) % frameRepeatCount } := by
  have hlength : (frames ++ [frame]).length = frames.length + 1 := by
    rw [List.length_append, List.length_singleton]
  refine ⟨h.width_eq, h.height_eq, h.repeat_eq, by rw [hlength], ?_, fun _ => List.getLast?_concat, ?_, ?_⟩
  · rw [hlength, slide_succ hr]
  · intro k shown hshown
    rcases Nat.lt_or_ge k frames.length with hlt | hge
    · rw [List.getElem?_append_left hlt] at hshown
      exact h.slides k shown hshown
    · have hend : k = frames.length := by
        obtain ⟨hlt, -⟩ := List.getElem?_eq_some_iff.mp hshown
        omega
      rw [hend, List.getElem?_concat_length] at hshown
      obtain rfl := Option.some.inj hshown
      rwa [hend]
  · intro k hk hne
    rw [hlength] at hk
    rw [List.getElem?_append_left (show k < frames.length by omega)]
    rcases Nat.lt_or_ge (k + 1) frames.length with hlt | hge
    · rw [List.getElem?_append_left hlt]
      exact h.again k hlt hne
    · -- the frame is the one behind the last
      have hend : frames.length = k + 1 := by omega
      have hlast := h.last (List.ne_nil_of_length_pos (by omega))
      rw [List.getLast?_eq_getElem?, hend, Nat.succ_sub_one] at hlast
      rw [← hend, List.getElem?_concat_length, hlast, hsame (by rwa [hend])]

theorem nextFrame_spec (hops : ops.Lawful) {frameRepeatCount : ℕ} {frames : List (Option Canvas)}
    {gen : SlideGenerator R} (hwidth : 0 < width) (hheight : 0 < height) (hfit : width / 4 ≤ height)
    (hr : 0 < frameRepeatCount) (h : Returned ops width height frameRepeatCount frames gen) :
    ∃ frame gen', gen.nextFrame ops = some (frame, gen') ∧
      Returned ops width height frameRepeatCount (frames ++ [frame]) gen' := by
  have hcount := h.count
  have hrandom := h.random_eq
  have hsucc := YuvFileGenerator.count_succ (n := frames.length) hr
  rcases eq_or_ne (frames.length % frameRepeatCount) 0 with hzero | hne
  · rw [if_pos hzero, Nat.add_zero] at hrandom
    obtain ⟨frame, hnew, hslide⟩ :=
      generateNewFrame_spec hops hwidth hheight hfit ⟨h.width_eq, h.height_eq⟩ hrandom
    refine ⟨some frame, _, ?_, h.append hr ⟨frame, rfl, hslide⟩ (fun hne => absurd hzero hne)⟩
    simp only [nextFrame, hcount, if_pos hzero, hnew, h.repeat_eq, Option.bind_eq_bind, Option.bind_some]
    rw [hsucc]
    rfl
  · rw [if_neg hne] at hrandom
    have hpos : 0 < frames.length := Nat.pos_of_ne_zero fun hnil => hne (by rw [hnil, Nat.zero_mod])
    -- the last frame is of the same slide
    have hlast := h.last (List.ne_nil_of_length_pos hpos)
    rw [List.getLast?_eq_getElem?] at hlast
    have hslide := h.slides _ _ hlast
    have hsame : (frames.length - 1) / frameRepeatCount = frames.length / frameRepeatCount := by
      have hmod := Nat.div_add_mod frames.length frameRepeatCount
      have hlt := Nat.mod_lt frames.length hr
      have hbefore : frames.length - 1 =
          (frames.length % frameRepeatCount - 1) + frameRepeatCount * (frames.length / frameRepeatCount) := by
        omega
      rw [hbefore, Nat.add_mul_div_left _ _ hr, Nat.div_eq_of_lt (by omega), Nat.zero_add]
    rw [hsame] at hslide
    refine ⟨gen.canvas, _, ?_, h.append hr hslide (fun _ => rfl)⟩
    simp only [nextFrame, hcount, if_neg hne, h.repeat_eq, Option.bind_eq_bind, Option.bind_some]
    rw [hsucc, ← hrandom]
    rfl

theorem nextFrames_spec (hops : ops.Lawful) {frameRepeatCount : ℕ} (hwidth : 0 < width)
    (hheight : 0 < height) (hfit : width / 4 ≤ height) (hr : 0 < frameRepeatCount) (n : ℕ) :
    ∃ frames gen, (create ops width height frameRepeatCount).nextFrames ops n = some (frames, gen) ∧
      frames.length = n ∧ Returned ops width height frameRepeatCount frames gen := by
  induction n with
  | zero =>
    refine ⟨[], _, rfl, rfl, rfl, rfl, rfl, (Nat.zero_mod _).symm, ?_, fun hne => absurd rfl hne,
      fun k frame hframe => ?_, fun k hk => absurd hk (Nat.not_lt_zero _)⟩
    · rw [List.length_nil, Nat.zero_mod, if_pos rfl, Nat.zero_div]
      rfl
    · rw [List.getElem?_nil] at hframe
      cases hframe
  | succ n ih =>
    obtain ⟨frames, gen, hframes, hlength, hreturned⟩ := ih
    obtain ⟨frame, gen', hframe, hreturned'⟩ := nextFrame_spec hops hwidth hheight hfit hr hreturned
    refine ⟨frames ++ [frame], gen', ?_, ?_, hreturned'⟩
    · simp [nextFrames, hframes, hframe]
    · rw [List.length_append, hlength, List.length_singleton]

end SlideGenerator

/-- Always the greatest number. -/
def greatestRandom : RandomOps Unit where
  seeded _ := ()
  next _ _ high := (high, ())

theorem greatestRandom_lawful : greatestRandom.Lawful where
  le_next _ _ _ h := h
  next_le _ _ _ _ := le_rfl

theorem rand_greatestRandom (random : Unit) {low : ℕ} {high : ℤ} (h : low ≤ high) :
    greatestRandom.rand random low high = some (high.toNat, ()) := if_pos h

/-- The first square may be higher than the frame. -/
theorem SlideGenerator.drawSquare_fails (hheight : 0 < height) (hlow : height < width / 4) {squareNum : ℕ}
    (hpos : 0 < squareNum) :
    drawSquare greatestRandom width height squareNum squareNum canvas () = none := by
  have hmost : ((1 : ℕ) : ℤ) ≤ (width : ℤ) / 4 := by omega
  have hlength : ((width : ℤ) / 4).toNat * squareNum / squareNum = width / 4 := by
    rw [Nat.mul_div_cancel _ hpos]
    omega
  have hx : ((0 : ℕ) : ℤ) ≤ (width : ℤ) - (width / 4 : ℕ) := by omega
  rw [drawSquare, if_pos (by omega), rand_greatestRandom () hmost]
  simp only [Option.bind_eq_bind, Option.bind_some, hlength]
  rw [rand_greatestRandom () hx, Option.bind_some]
  have hnone : greatestRandom.rand () 0 ((height : ℤ) - (width / 4 : ℕ)) = none := if_neg (by omega)
  rw [hnone]
  rfl

theorem SlideGenerator.nextFrames_fails (hheight : 0 < height) (hlow : height < width / 4)
    (frameRepeatCount n : ℕ) :
    (create greatestRandom width height frameRepeatCount).nextFrames greatestRandom (n + 1) = none := by
  induction n with
  | zero =>
    have hslide :
        (create greatestRandom width height frameRepeatCount).generateNewFrame greatestRandom = none := by
      have hsquares : ∀ canvas,
          drawSquares greatestRandom width height 1024 (1023 + 1) canvas () = none := by
        intro canvas
        rw [drawSquares, drawSquare_fails hheight hlow (by decide)]
        rfl
      rw [generateNewFrame, rand_greatestRandom _ (by decide)]
      exact congrArg (Option.bind · _) (hsquares _)
    have hframe :
        (create greatestRandom width height frameRepeatCount).nextFrame greatestRandom = none := by
      rw [nextFrame, hslide]
      rfl
    rw [nextFrames, nextFrames, Option.bind_eq_bind, Option.bind_some, hframe]
    rfl
  | succ n ih => rw [nextFrames, ih]; rfl

/-- Whatever the random numbers are: on a frame that is at least a quarter as high as wide, no write is
outside of a plane, and each slide shows the squares that the random numbers give, as often as it should.
On a lower one there are numbers for which already the first slide fails. -/
theorem SlideGenerator.slides_fit_iff {frameRepeatCount : ℕ} (hsize : SlideSize width height)
    (hr : 0 < frameRepeatCount) :
    if width / 4 ≤ height then
      ∀ (R : Type) (ops : RandomOps R), ops.Lawful → ∀ n, ∃ frames gen,
        (create ops width height frameRepeatCount).nextFrames ops n = some (frames, gen) ∧
        frames.length = n ∧
        (∀ k frame, frames[k]? = some frame →
          ∃ slide, frame = some slide ∧ SlideOf ops width height (k / frameRepeatCount) slide) ∧
        ∀ k, k + 1 < n → (k + 1) % frameRepeatCount ≠ 0 → frames[k + 1]? = frames[k]?
    else ∃ (R : Type) (ops : RandomOps R), ops.Lawful ∧ ∀ n, 0 < n →
      (create ops width height frameRepeatCount).nextFrames ops n = none := by
  have hwidth := hsize.width_pos
  have hheight := hsize.height_pos
  split
  · rename_i hfit
    intro R ops hops n
    obtain ⟨frames, gen, hframes, rfl, hreturned⟩ := nextFrames_spec hops hwidth hheight hfit hr n
    exact ⟨frames, gen, hframes, rfl, hreturned.slides, hreturned.again⟩
  · rename_i hlow
    refine ⟨Unit, greatestRandom, greatestRandom_lawful, fun n hn => ?_⟩
    obtain ⟨m, rfl⟩ := Nat.exists_eq_succ_of_ne_zero (Nat.ne_of_gt hn)
    exact nextFrames_fails hheight (by omega) frameRepeatCount m

/-- A frame of 8 by 2 is high enough, one of 12 by 2 is not. -/
theorem low_slides_fail :
    (∃ frames gen,
      (SlideGenerator.create steppingRandom 8 2 3).nextFrames steppingRandom 5 = some (frames, gen) ∧
      frames.length = 5) ∧
    ∃ (R : Type) (ops : RandomOps R), ops.Lawful ∧ ∀ n, 0 < n →
      (SlideGenerator.create ops 12 2 3).nextFrames ops n = none := by
  constructor
  · have hfit := SlideGenerator.slides_fit_iff
      (show SlideSize 8 2 from ⟨by constructor <;> decide, by decide⟩) (show 0 < 3 by decide)
    rw [if_pos (by decide)] at hfit
    obtain ⟨frames, gen, hframes, hlength, -⟩ := hfit ℕ steppingRandom steppingRandom_lawful 5
    exact ⟨frames, gen, hframes, hlength⟩
  · have hlow := SlideGenerator.slides_fit_iff
      (show SlideSize 12 2 from ⟨by constructor <;> decide, by decide⟩) (show 0 < 3 by decide)
    rwa [if_neg (by decide)] at hlow

end Slides

end WebrtcGccNs3.Video
