import WebrtcGccNs3.Video.Canvas

/-!
# Moving squares

`SquareGenerator` draws its squares on a grey frame, from the first to the last, and moves
them a little for each frame. The resolution may change in between. Whatever the random
numbers are, the squares stay inside the frame.
-/
namespace WebrtcGccNs3.Video

/-- `Random`: from a seed, and the next number between two bounds. -/
structure RandomOps (R : Type) where
  seeded : ℕ → R
  next : R → ℕ → ℕ → ℕ × R

structure RandomOps.Lawful {R : Type} (ops : RandomOps R) : Prop where
  le_next : ∀ random low high, low ≤ high → low ≤ (ops.next random low high).1
  next_le : ∀ random low high, low ≤ high → (ops.next random low high).1 ≤ high

/-- `Rand`. `none` if there is no number between the bounds. -/
def RandomOps.rand {R : Type} (ops : RandomOps R) (random : R) (low : ℕ) (high : ℤ) : Option (ℕ × R) :=
  if low ≤ high then some (ops.next random low high.toNat) else none

section Random

variable {R : Type} {ops : RandomOps R}

theorem rand_eq (hops : ops.Lawful) (random : R) (low : ℕ) (high : ℤ) (h : low ≤ high) :
    ∃ value random', ops.rand random low high = some (value, random') ∧
      low ≤ value ∧ (value : ℤ) ≤ high := by
  refine ⟨(ops.next random low high.toNat).1, (ops.next random low high.toNat).2, if_pos h,
    hops.le_next random _ _ (by omega), ?_⟩
  have hle := hops.next_le random low high.toNat (by omega)
  omega

end Random

/-- The conversion to `int`. -/
def toInt (n : ℕ) : ℤ := (BitVec.ofNat 32 n).toInt

inductive OutputType where
  | kI420
  | kI420A
  | kI010
  deriving DecidableEq

structure Square (R : Type) extends Look where
  random : R
  x : ℕ
  y : ℕ

namespace Square

variable {R : Type} (ops : RandomOps R)

def create (width height seed : ℕ) : Option (Square R) := do
  let x ← ops.rand (ops.seeded seed) 0 width
  let y ← ops.rand x.2 0 height
  let length ← ops.rand y.2 1 (if width > 4 then width / 4 else 1)
  let yuvY ← ops.rand length.2 0 255
  let yuvU ← ops.rand yuvY.2 0 255
  let yuvV ← ops.rand yuvU.2 0 255
  let yuvA ← ops.rand yuvV.2 0 255
  return { x := x.1, y := y.1, length := length.1, yuvY := UInt8.ofNat yuvY.1, yuvU := UInt8.ofNat yuvU.1,
           yuvV := UInt8.ofNat yuvV.1, yuvA := UInt8.ofNat yuvA.1, random := yuvA.2 }

/-- The square is no longer than a quarter of the frame, whose size may have changed. -/
def moved (square : Square R) (width height stepX stepY : ℕ) : Patch :=
  let lengthCap := min height width / 4
  let length := min square.length lengthCap
  { square.toLook with
    length := length
    x := (square.x + stepX) % (width - length)
    y := (square.y + stepY) % (height - length) }

def draw (square : Square R) (canvas : Canvas) : Option (Canvas × Square R) := do
  let stepX ← ops.rand square.random 0 4
  let stepY ← ops.rand stepX.2 0 4
  let patch := square.moved canvas.buffer.width canvas.buffer.height stepX.1 stepY.1
  let drawn ← drawPatch canvas patch
  return (drawn, { square with random := stepY.2, x := patch.x, y := patch.y })

/-- The squares from the first to the last. -/
def drawAll : List (Square R) → Canvas → Option (Canvas × List (Square R))
  | [], canvas => some (canvas, [])
  | square :: rest, canvas => do
    let first ← square.draw ops canvas
    let last ← drawAll rest first.1
    return (last.1, first.2 :: last.2)

end Square

structure SquareGenerator (R : Type) where
  type : OutputType
  width : ℕ
  height : ℕ
  squares : List (Square R)

inductive SquareGenerator.Action where
  | nextFrame
  | changeResolution (width height : ℕ)

namespace SquareGenerator

variable {R : Type} (ops : RandomOps R)

/-- `none` where an `RTC_CHECK` fails. -/
def changeResolution (gen : SquareGenerator R) (width height : ℕ) : Option (SquareGenerator R) := do
  guard (0 < toInt width)
  guard (0 < toInt height)
  return { gen with width := (toInt width).toNat, height := (toInt height).toNat }

def createSquares (width height : ℕ) : ℕ → Option (List (Square R))
  | 0 => some []
  | i + 1 => do
    let before ← createSquares width height i
    let square ← Square.create ops width height (i + 1)
    return before ++ [square]

def create (width height : ℕ) (type : OutputType) (numSquares : ℕ) : Option (SquareGenerator R) := do
  let gen ← changeResolution
    { type := type, width := 0, height := 0, squares := ([] : List (Square R)) } width height
  let squares ← createSquares ops width height numSquares
  return { gen with squares := squares }

/-- The frame before it is converted, which it is for `kI010`. -/
def nextFrame (gen : SquareGenerator R) : Option (Canvas × SquareGenerator R) := do
  let buffer := createCanvas gen.width gen.height (gen.type = .kI420A)
  let drawn ← Square.drawAll ops gen.squares buffer
  return (drawn.1, { gen with squares := drawn.2 })

/-- The frames of a run. -/
def run : List Action → SquareGenerator R → Option (List Canvas × SquareGenerator R)
  | [], gen => some ([], gen)
  | .nextFrame :: rest, gen => do
    let frame ← gen.nextFrame ops
    let frames ← run rest frame.2
    return (frame.1 :: frames.1, frames.2)
  | .changeResolution width height :: rest, gen => do
    let changed ← gen.changeResolution width height
    run rest changed

end SquareGenerator

section Run

variable {R : Type} {ops : RandomOps R} {width height : ℕ} {canvas : Canvas}

/-- The look of a square in a frame of a size. -/
def Look.fit (look : Look) (width height : ℕ) : Look :=
  { look with length := min look.length (min height width / 4) }

/-- The square when it has been moved for the next frame. -/
def Square.next (ops : RandomOps R) (width height : ℕ) (square : Square R) : Square R :=
  let stepX := ops.next square.random 0 4
  let stepY := ops.next stepX.2 0 4
  let patch := square.moved width height stepX.1 stepY.1
  { square with random := stepY.2, x := patch.x, y := patch.y }

/-- What a square shows on a frame, at the place that it has been moved to. -/
def Square.patch (width height : ℕ) (square : Square R) : Patch :=
  { square.toLook.fit width height with x := square.x, y := square.y }

theorem Square.inside_moved (square : Square R) (hwidth : 0 < width) (hheight : 0 < height)
    (stepX stepY : ℕ) :
    (square.moved width height stepX stepY).Inside width height := by
  have hlength : min square.length (min height width / 4) ≤ min height width / 4 := Nat.min_le_right _ _
  have hx := Nat.mod_lt (square.x + stepX)
    (y := width - min square.length (min height width / 4)) (by omega)
  have hy := Nat.mod_lt (square.y + stepY)
    (y := height - min square.length (min height width / 4)) (by omega)
  constructor
  · show (square.x + stepX) % _ + min square.length (min height width / 4) ≤ width
    omega
  · show (square.y + stepY) % _ + min square.length (min height width / 4) ≤ height
    omega

theorem Square.draw_spec (ops : RandomOps R) (square : Square R) (hwidth : 0 < width)
    (hheight : 0 < height) (hsized : canvas.Sized width height) :
    ∃ canvas', square.draw ops canvas = some (canvas', square.next ops width height) ∧
      drawPatch canvas ((square.next ops width height).patch width height) = some canvas' ∧
      canvas'.Sized width height ∧
      ((square.next ops width height).patch width height).Inside width height := by
  have hrand : ∀ random : R, ops.rand random 0 4 = some (ops.next random 0 4) := fun random =>
    if_pos (by decide)
  have hinside : ((square.next ops width height).patch width height).Inside width height :=
    square.inside_moved hwidth hheight _ _
  obtain ⟨canvas', hdrawn, hsized', -⟩ := drawPatch_spec hinside hsized
  refine ⟨canvas', ?_, hdrawn, hsized', hinside⟩
  simp only [Square.draw, hrand, hsized.width_eq, hsized.height_eq, Option.bind_eq_bind, Option.bind_some]
  change (drawPatch canvas ((square.next ops width height).patch width height)).bind _ = _
  rw [hdrawn]
  rfl

theorem Square.drawAll_spec (ops : RandomOps R) (squares : List (Square R)) (hwidth : 0 < width)
    (hheight : 0 < height) (hsized : canvas.Sized width height) :
    ∃ canvas', drawAll ops squares canvas = some (canvas', squares.map (Square.next ops width height)) ∧
      ((squares.map (Square.next ops width height)).map (Square.patch width height)).foldlM drawPatch canvas =
        some canvas' ∧
      ∀ square ∈ squares.map (Square.next ops width height),
        (square.patch width height).Inside width height := by
  induction squares generalizing canvas with
  | nil => exact ⟨canvas, rfl, rfl, fun square hmem => absurd hmem List.not_mem_nil⟩
  | cons square rest ih =>
    obtain ⟨first, hfirst, hpatch, hsized', hinside⟩ := square.draw_spec ops hwidth hheight hsized
    obtain ⟨last, hlast, hpatches, hall⟩ := ih hsized'
    refine ⟨last, ?_, ?_, ?_⟩
    · simp [drawAll, hfirst, hlast]
    · rw [List.map_cons, List.map_cons, List.foldlM_cons, hpatch]
      exact hpatches
    · rw [List.map_cons, List.forall_mem_cons]
      exact ⟨hinside, hall⟩

namespace SquareGenerator

/-- The generator behind each frame of a run, as it should be: its squares have been moved for it. -/
def shown (ops : RandomOps R) : List Action → SquareGenerator R → List (SquareGenerator R)
  | [], _ => []
  | .nextFrame :: rest, gen =>
    let gen := { gen with squares := gen.squares.map (Square.next ops gen.width gen.height) }
    gen :: shown ops rest gen
  | .changeResolution width height :: rest, gen =>
    shown ops rest { gen with width := (toInt width).toNat, height := (toInt height).toNat }

/-- The frame of a generator: its squares, inside, each above those before it. -/
structure FrameOf (gen : SquareGenerator R) (frame : Canvas) : Prop where
  inside : ∀ square ∈ gen.squares, (square.patch gen.width gen.height).Inside gen.width gen.height
  shows : Shows gen.width gen.height (gen.squares.map (Square.patch gen.width gen.height)) frame
  alpha : frame.dataA.isSome ↔ gen.type = .kI420A

variable {gen : SquareGenerator R}

theorem nextFrame_spec (ops : RandomOps R) (hwidth : 0 < gen.width) (hheight : 0 < gen.height) :
    ∃ frame, gen.nextFrame ops = some (frame,
        { gen with squares := gen.squares.map (Square.next ops gen.width gen.height) }) ∧
      FrameOf { gen with squares := gen.squares.map (Square.next ops gen.width gen.height) } frame := by
  have hsized := sized_createCanvas gen.width gen.height (gen.type = .kI420A)
  obtain ⟨frame, hdrawn, hpatches, hinside⟩ :=
    Square.drawAll_spec ops gen.squares hwidth hheight hsized
  obtain ⟨_, hpatches', hsized', hpainted⟩ := drawPatches_spec (List.forall_mem_map.mpr hinside) hsized
  obtain rfl := Option.some.inj (hpatches.symm.trans hpatches')
  obtain ⟨hshows, halpha⟩ := hpainted.shows hsized'
  refine ⟨frame, ?_, hinside, hshows, ?_⟩
  · simp [nextFrame, hdrawn]
  · rw [halpha, decide_eq_true_eq]

/-- No `int` overflows when squares are moved and drawn on a frame of this size. -/
structure FrameSize (width height : ℕ) : Prop where
  width_pos : 0 < width
  height_pos : 0 < height
  fits : (width + 4) * (height + 4) < 2 ^ 31

/-- The sizes to which a run changes are sizes of a frame. -/
def Valid (actions : List Action) : Prop :=
  ∀ width height, Action.changeResolution width height ∈ actions →
    FrameSize (toInt width).toNat (toInt height).toNat

theorem run_spec (ops : RandomOps R) {actions : List Action} (hvalid : Valid actions)
    (hwidth : 0 < gen.width) (hheight : 0 < gen.height) :
    ∃ frames gen', run ops actions gen = some (frames, gen') ∧
      List.Forall₂ FrameOf (shown ops actions gen) frames := by
  induction actions generalizing gen with
  | nil => exact ⟨[], gen, rfl, List.Forall₂.nil⟩
  | cons action rest ih =>
    have hrest : Valid rest := fun w h hmem => hvalid w h (List.mem_cons_of_mem _ hmem)
    cases action with
    | nextFrame =>
      obtain ⟨frame, hframe, hframeOf⟩ := nextFrame_spec ops hwidth hheight
      obtain ⟨frames, gen', hrun, hall⟩ := @ih
        { gen with squares := gen.squares.map (Square.next ops gen.width gen.height) } hrest hwidth hheight
      refine ⟨frame :: frames, gen', ?_, List.Forall₂.cons hframeOf hall⟩
      simp [run, hframe, hrun]
    | changeResolution width height =>
      have hsize := hvalid width height List.mem_cons_self
      obtain ⟨frames, gen', hrun, hall⟩ := @ih { gen with
        width := (toInt width).toNat
        height := (toInt height).toNat } hrest hsize.width_pos hsize.height_pos
      refine ⟨frames, gen', ?_, hall⟩
      have hw : 0 < toInt width := Int.pos_iff_toNat_pos.mpr hsize.width_pos
      have hh : 0 < toInt height := Int.pos_iff_toNat_pos.mpr hsize.height_pos
      simp [run, changeResolution, hw, hh, hrun]

/-- The squares keep their lengths and colours. -/
theorem looks_of_shown {ops : RandomOps R} {actions : List Action} {later : SquareGenerator R}
    (h : later ∈ shown ops actions gen) :
    later.type = gen.type ∧ later.squares.map Square.toLook = gen.squares.map Square.toLook := by
  induction actions generalizing gen with
  | nil => cases h
  | cons action rest ih =>
    cases action with
    | nextFrame =>
      have hlooks : ∀ width height, (gen.squares.map (Square.next ops width height)).map Square.toLook =
          gen.squares.map Square.toLook := fun width height => by
        rw [List.map_map]
        rfl
      rcases List.mem_cons.mp h with rfl | h
      · exact ⟨rfl, hlooks _ _⟩
      · obtain ⟨htype, hsame⟩ := ih h
        exact ⟨htype, hsame.trans (hlooks _ _)⟩
    | changeResolution width height =>
      exact @ih { gen with width := (toInt width).toNat, height := (toInt height).toNat } h

end SquareGenerator

theorem toInt_eq {n : ℕ} (h : n < 2 ^ 31) : toInt n = n := by
  have hsmall : (BitVec.ofNat 32 n).toNat = n := by
    rw [BitVec.toNat_ofNat]
    omega
  rw [toInt, BitVec.toInt_eq_toNat_of_lt (by omega), hsmall]

theorem Square.create_spec (hops : ops.Lawful) (width height seed : ℕ) :
    ∃ square, Square.create ops width height seed = some square ∧ 1 ≤ square.length := by
  have hmost : ((1 : ℕ) : ℤ) ≤ if width > 4 then (width : ℤ) / 4 else 1 := by
    split <;> omega
  obtain ⟨x, r1, hx, -⟩ := rand_eq hops (ops.seeded seed) 0 width (by omega)
  obtain ⟨y, r2, hy, -⟩ := rand_eq hops r1 0 height (by omega)
  obtain ⟨length, r3, hlength, hone, -⟩ := rand_eq hops r2 _ _ hmost
  obtain ⟨yuvY, r4, hyuvY, -⟩ := rand_eq hops r3 0 255 (by decide)
  obtain ⟨yuvU, r5, hyuvU, -⟩ := rand_eq hops r4 0 255 (by decide)
  obtain ⟨yuvV, r6, hyuvV, -⟩ := rand_eq hops r5 0 255 (by decide)
  obtain ⟨yuvA, r7, hyuvA, -⟩ := rand_eq hops r6 0 255 (by decide)
  simp [Square.create, hx, hy, hlength, hyuvY, hyuvU, hyuvV, hyuvA, hone]

namespace SquareGenerator

theorem createSquares_spec (hops : ops.Lawful) (width height n : ℕ) :
    ∃ squares, createSquares ops width height n = some squares ∧ squares.length = n ∧
      ∀ square ∈ squares, 1 ≤ square.length := by
  induction n with
  | zero => exact ⟨[], rfl, rfl, fun square hmem => absurd hmem List.not_mem_nil⟩
  | succ i ih =>
    obtain ⟨before, hbefore, hlength, hall⟩ := ih
    obtain ⟨square, hsquare, hone⟩ := Square.create_spec hops width height (i + 1)
    refine ⟨before ++ [square], ?_, ?_, ?_⟩
    · simp [createSquares, hbefore, hsquare]
    · rw [List.length_append, hlength, List.length_singleton]
    · rw [List.forall_mem_append, List.forall_mem_singleton]
      exact ⟨hall, hone⟩

theorem FrameSize.lt (h : FrameSize width height) : width < 2 ^ 31 ∧ height < 2 ^ 31 := by
  obtain ⟨hwidth, hheight, hfits⟩ := h
  constructor
  · have hle := Nat.le_mul_of_pos_right (width + 4) (show 0 < height + 4 by omega)
    omega
  · have hle := Nat.le_mul_of_pos_left (height + 4) (show 0 < width + 4 by omega)
    omega

theorem create_spec (hops : ops.Lawful) (hsize : FrameSize width height) (type : OutputType)
    (numSquares : ℕ) :
    ∃ gen : SquareGenerator R, create ops width height type numSquares = some gen ∧
      gen.width = width ∧ gen.height = height ∧ gen.type = type ∧ gen.squares.length = numSquares ∧
      ∀ square ∈ gen.squares, 1 ≤ square.length := by
  obtain ⟨squares, hsquares, hlength, hall⟩ := createSquares_spec hops width height numSquares
  obtain ⟨hwidth, hheight⟩ := hsize.lt
  refine ⟨{ type := type, width := width, height := height, squares := squares }, ?_, rfl, rfl, rfl, hlength,
    hall⟩
  simp [create, changeResolution, toInt_eq hwidth, toInt_eq hheight, hsize.width_pos, hsize.height_pos,
    hsquares]

/-- Whatever the random numbers are and however the resolution changes, no write is outside of a plane.
Each frame of a run shows the generator's own squares, at the places to which the random numbers have
moved them: a pixel has the colour of the last one that covers it. A square has its length and colours
for the whole run, but no more than a quarter of a frame's size. -/
theorem squares_are_inside (hops : ops.Lawful) (hsize : FrameSize width height) (type : OutputType)
    (numSquares : ℕ) :
    ∃ gen : SquareGenerator R, create ops width height type numSquares = some gen ∧
      gen.width = width ∧ gen.height = height ∧ gen.type = type ∧ gen.squares.length = numSquares ∧
      (∀ square ∈ gen.squares, 1 ≤ square.length) ∧
      ∀ actions, Valid actions → ∃ frames gen', run ops actions gen = some (frames, gen') ∧
        List.Forall₂ FrameOf (shown ops actions gen) frames ∧
        ∀ later ∈ shown ops actions gen, later.type = type ∧
          later.squares.map Square.toLook = gen.squares.map Square.toLook := by
  obtain ⟨gen, hgen, hwidth, hheight, htype, hlength, hone⟩ := create_spec hops hsize type numSquares
  refine ⟨gen, hgen, hwidth, hheight, htype, hlength, hone, fun actions hvalid => ?_⟩
  obtain ⟨frames, gen', hrun, hframes⟩ :=
    run_spec ops hvalid (hwidth ▸ hsize.width_pos) (hheight ▸ hsize.height_pos)
  exact ⟨frames, gen', hrun, hframes, fun later hlater => htype ▸ looks_of_shown hlater⟩

end SquareGenerator

/-- A number from the seed and how many were drawn. -/
def steppingRandom : RandomOps ℕ where
  seeded seed := seed
  next random low high := (low + random % (high - low + 1), random + 7)

theorem steppingRandom_lawful : steppingRandom.Lawful where
  le_next _ _ _ _ := Nat.le_add_right _ _
  next_le random low high h := by
    have hlt := Nat.mod_lt random (show 0 < high - low + 1 by omega)
    show low + random % (high - low + 1) ≤ high
    omega

theorem squares_after_a_change : ∃ gen frames gen',
    SquareGenerator.create steppingRandom 8 6 .kI420A 2 = some gen ∧
      SquareGenerator.run steppingRandom [.nextFrame, .changeResolution 4 5, .nextFrame] gen =
        some (frames, gen') ∧
      frames.length = 2 := by
  obtain ⟨gen, hgen, -, -, -, -, -, h⟩ := SquareGenerator.squares_are_inside
    steppingRandom_lawful (show SquareGenerator.FrameSize 8 6 by constructor <;> decide) .kI420A 2
  have hvalid : SquareGenerator.Valid [.nextFrame, .changeResolution 4 5, .nextFrame] := by
    intro width height hmem
    obtain ⟨rfl, rfl⟩ : width = 4 ∧ height = 5 := by simpa using hmem
    constructor <;> decide
  obtain ⟨frames, gen', hrun, hall, -⟩ := h _ hvalid
  exact ⟨gen, frames, gen', hgen, hrun, hall.length_eq.symm⟩

end Run

end WebrtcGccNs3.Video
