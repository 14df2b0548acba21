import Mathlib.Data.List.Forall2
import WebrtcGccNs3.Lib.Machine
import WebrtcGccNs3.Wire.Trace

/-!
# FrameGeneratorCapturer

The capturer takes frames from a generator, which makes them at the rate of the source. To
deliver fewer of them it takes several at a time and delivers the last one. Its task runs as
often in a second as the target rate says, or as the sinks wish if this is less. A wish that
is not below the target rate is forgotten. Each call is an action here, and so is each run
of the task. What `TestVideoCapturer` does with a frame is left out, and so are the log lines.
-/
namespace WebrtcGccNs3.Video

open Wire (toDouble)

structure GeneratorOps (G F : Type) where
  nextFrame : G → Option (F × G)
  changeResolution : G → ℕ → ℕ → Option G

/-- A frame as it is built. -/
structure BuiltFrame (F R C : Type) where
  /-- The buffer and the update rectangle. -/
  data : F
  rotation : R
  timestampUs : ℤ
  ntpTimeMs : ℤ
  colorSpace : Option C

structure FrameGeneratorCapturer (G R C : Type) where
  sending : Bool
  frameGenerator : G
  sourceFps : ℤ
  targetCaptureFps : ℤ
  wantedFps : Option ℤ
  fakeRotation : R
  fakeColorSpace : Option C
  firstFrameCaptureTime : ℤ

/-- `std::round`, which rounds half away from zero. -/
def stdRound (x : ℚ) : ℤ := if 0 ≤ x then ⌊x + 1 / 2⌋ else -⌊-x + 1 / 2⌋

namespace FrameGeneratorCapturer

variable {G F R C : Type} (ops : GeneratorOps G F)

def create (frameGenerator : G) (targetFps : ℤ) (rotation : R) : FrameGeneratorCapturer G R C where
  sending := true
  frameGenerator := frameGenerator
  sourceFps := targetFps
  targetCaptureFps := targetFps
  wantedFps := none
  fakeRotation := rotation
  fakeColorSpace := none
  firstFrameCaptureTime := -1

/-- A frame and `more` after it. The last one stays in `frame_data`. -/
def nextFrames (gen : G) : ℕ → Option (List F × G)
  | 0 => do
    let frame ← ops.nextFrame gen
    return ([frame.1], frame.2)
  | more + 1 => do
    let before ← nextFrames gen more
    let frame ← ops.nextFrame before.2
    return (before.1 ++ [frame.1], frame.2)

/-- `none` where the quotient is no number. -/
def decimation (sourceFps targetCaptureFps : ℤ) : Option ℤ :=
  if targetCaptureFps = 0 then none else some (stdRound (toDouble (sourceFps / targetCaptureFps)))

/-- With the frames that the generator made, and the one given to `OnFrame`. -/
def insertFrame (c : FrameGeneratorCapturer G R C) (timestampUs ntpTimeMs : ℤ) :
    Option (List F × Option (BuiltFrame F R C) × FrameGeneratorCapturer G R C) :=
  if c.sending then do
    let decimation ← decimation c.sourceFps c.targetCaptureFps
    let frames ← nextFrames ops c.frameGenerator (decimation - 1).toNat
    let frameData ← frames.1.getLast?
    let frame : BuiltFrame F R C :=
      ⟨frameData, c.fakeRotation, timestampUs, ntpTimeMs, c.fakeColorSpace⟩
    return (frames.1, some frame, { c with
      frameGenerator := frames.2
      firstFrameCaptureTime :=
        if c.firstFrameCaptureTime = -1 then frame.ntpTimeMs else c.firstFrameCaptureTime })
  else some ([], none, c)

/-- `none` where the `RTC_CHECK` fails. -/
def changeFramerate (c : FrameGeneratorCapturer G R C) (targetFramerate : ℤ) :
    Option (FrameGeneratorCapturer G R C) :=
  if 0 < c.targetCaptureFps then some { c with targetCaptureFps := min c.sourceFps targetFramerate }
  else none

def updateFps (c : FrameGeneratorCapturer G R C) (maxFps : ℤ) : FrameGeneratorCapturer G R C :=
  { c with wantedFps := if maxFps < c.targetCaptureFps then some maxFps else none }

/-- How often in a second the task runs. -/
def getCurrentConfiguredFramerate (c : FrameGeneratorCapturer G R C) : ℤ :=
  match c.wantedFps with
  | some wanted => if wanted < c.targetCaptureFps then wanted else c.targetCaptureFps
  | none => c.targetCaptureFps

end FrameGeneratorCapturer

structure CapturerRun (G F R C : Type) where
  capturer : FrameGeneratorCapturer G R C
  /-- All frames that the generator made. -/
  generated : List F := []
  /-- The frames given to `OnFrame`, with the target rate at the time. -/
  delivered : List (BuiltFrame F R C × ℤ) := []

namespace CapturerRun

inductive Act (R C : Type) where
  | insertFrame (timestampUs ntpTimeMs : ℤ)
  | start
  | stop
  | changeResolution (width height : ℕ)
  | changeFramerate (targetFramerate : ℤ)
  /-- `AddOrUpdateSink` or `RemoveSink`, with the rate that all sinks together want after it. -/
  | sinkWants (maxFramerateFps : ℤ)
  | setFakeRotation (rotation : R)
  | setFakeColorSpace (colorSpace : Option C)

variable {G F R C : Type} (ops : GeneratorOps G F)

def step (s : CapturerRun G F R C) : Act R C → Option (CapturerRun G F R C)
  | .insertFrame timestampUs ntpTimeMs => do
    let inserted ← s.capturer.insertFrame ops timestampUs ntpTimeMs
    return {
      capturer := inserted.2.2
      generated := s.generated ++ inserted.1
      delivered := s.delivered ++ inserted.2.1.toList.map (·, s.capturer.targetCaptureFps) }
  | .start => some { s with capturer := { s.capturer with sending := true } }
  | .stop => some { s with capturer := { s.capturer with sending := false } }
  | .changeResolution width height => do
    let gen ← ops.changeResolution s.capturer.frameGenerator width height
    return { s with capturer := { s.capturer with frameGenerator := gen } }
  | .changeFramerate targetFramerate => do
    let capturer ← s.capturer.changeFramerate targetFramerate
    return { s with capturer := capturer }
  | .sinkWants maxFramerateFps => some { s with capturer := s.capturer.updateFps maxFramerateFps }
  | .setFakeRotation rotation => some { s with capturer := { s.capturer with fakeRotation := rotation } }
  | .setFakeColorSpace colorSpace =>
    some { s with capturer := { s.capturer with fakeColorSpace := colorSpace } }

end CapturerRun

section Rates

variable {source target k : ℤ}

end Rates

section Runs

variable {G F R C : Type} {ops : GeneratorOps G F}

namespace FrameGeneratorCapturer

variable {c c' : FrameGeneratorCapturer G R C}

/-- What `InsertFrame` leaves alone. -/
structure SameSettings (c c' : FrameGeneratorCapturer G R C) : Prop where
  sending : c'.sending = c.sending
  sourceFps : c'.sourceFps = c.sourceFps
  targetCaptureFps : c'.targetCaptureFps = c.targetCaptureFps
  wantedFps : c'.wantedFps = c.wantedFps

theorem sameSettings_insertFrame {timestampUs ntpTimeMs : ℤ}
    {inserted : List F × Option (BuiltFrame F R C) × FrameGeneratorCapturer G R C}
    (h : c.insertFrame ops timestampUs ntpTimeMs = some inserted) : SameSettings c inserted.2.2 := by
  unfold insertFrame at h
  split at h
  · simp only [Option.bind_eq_bind, Option.bind_eq_some_iff] at h
    obtain ⟨k, -, frames, -, last, -, h⟩ := h
    obtain rfl := Option.some.inj h
    exact ⟨rfl, rfl, rfl, rfl⟩
  · obtain rfl := Option.some.inj h
    exact ⟨rfl, rfl, rfl, rfl⟩

end FrameGeneratorCapturer

namespace CapturerRun

variable {s s' : CapturerRun G F R C} {source : ℤ} {actions later : List (Act R C)}

def initial (frameGenerator : G) (targetFps : ℤ) (rotation : R) : CapturerRun G F R C where
  capturer := .create frameGenerator targetFps rotation

/-- What the `RTC_CHECK` on the target rate asks for. -/
def Valid : Act R C → Prop
  | .changeFramerate targetFramerate => 0 < targetFramerate
  | _ => True

variable {all : List (ℤ × ℤ)}

/-- Counts, and has one resolution. -/
def countingOps : GeneratorOps ℕ ℕ where
  nextFrame gen := some (gen, gen + 1)
  changeResolution gen _ _ := some gen

theorem wantedFps_step {action : Act R C} (hother : ∀ m, action ≠ .sinkWants m)
    (h : step ops s action = some s') : s'.capturer.wantedFps = s.capturer.wantedFps := by
  cases action with
  | insertFrame timestampUs ntpTimeMs =>
    obtain ⟨inserted, hinserted, hs'⟩ := Option.bind_eq_some_iff.mp h
    obtain rfl := Option.some.inj hs'
    exact (FrameGeneratorCapturer.sameSettings_insertFrame hinserted).wantedFps
  | changeResolution width height =>
    obtain ⟨gen, -, hs'⟩ := Option.bind_eq_some_iff.mp h
    obtain rfl := Option.some.inj hs'
    rfl
  | changeFramerate targetFramerate =>
    obtain ⟨capturer, hchange, hs'⟩ := Option.bind_eq_some_iff.mp h
    obtain rfl := Option.some.inj hs'
    obtain ⟨-, hcapturer⟩ := Option.ite_none_right_eq_some.mp hchange
    obtain rfl := Option.some.inj hcapturer
    rfl
  | sinkWants maxFramerateFps => exact absurd rfl (hother maxFramerateFps)
  | start | stop | setFakeRotation | setFakeColorSpace =>
    obtain rfl := Option.some.inj h
    rfl

/-- Until the sinks wish for another rate, the task runs no more often than they wish exactly if the
wish was below the target rate when they told it, or the target rate itself is not above it. -/
theorem sinks_wish_is_kept_iff {maxFps : ℤ}
    (h : Machine.run (step ops) s (.sinkWants maxFps :: later) = some s')
    (hlater : ∀ m, Act.sinkWants m ∉ later) :
    s'.capturer.getCurrentConfiguredFramerate =
        (if maxFps < s.capturer.targetCaptureFps then min maxFps s'.capturer.targetCaptureFps
          else s'.capturer.targetCaptureFps) ∧
      (s'.capturer.getCurrentConfiguredFramerate ≤ maxFps ↔
        maxFps < s.capturer.targetCaptureFps ∨ s'.capturer.targetCaptureFps ≤ maxFps) := by
  obtain ⟨told, htold, hrun⟩ := Machine.run_cons_eq_some.mp h
  obtain rfl := Option.some.inj htold
  have hothers : ∀ action ∈ later, ∀ m, action ≠ .sinkWants m := by
    rintro _ hmem m rfl
    exact hlater m hmem
  have hwanted := Machine.invariant_of_allSteps
    (I := fun t => t.capturer.wantedFps = (s.capturer.updateFps maxFps).wantedFps)
    (C := fun _ action => ∀ m, action ≠ .sinkWants m)
    (fun t action t' hI hC hstep => (wantedFps_step hC hstep).trans hI) rfl
    (Machine.allSteps_of_forall_mem (fun action hmem _ => hothers action hmem) _) hrun
  have hrate : s'.capturer.getCurrentConfiguredFramerate =
      if maxFps < s.capturer.targetCaptureFps then min maxFps s'.capturer.targetCaptureFps
        else s'.capturer.targetCaptureFps := by
    rw [FrameGeneratorCapturer.getCurrentConfiguredFramerate, hwanted,
      FrameGeneratorCapturer.updateFps]
    split_ifs with hbelow
    · rcases lt_or_ge maxFps s'.capturer.targetCaptureFps with hlt | hge
      · simp [hlt, hlt.le]
      · simp [hge.not_gt, hge]
    · rfl
  refine ⟨hrate, ?_⟩
  rw [hrate]
  split_ifs with hbelow
  · simp [hbelow]
  · simp [hbelow]

/-- A wish for 20 frames, told when the target rate is 15, is forgotten when it is 30 again. -/
theorem wish_of_20_is_forgotten : ∃ s s' : CapturerRun ℕ ℕ Unit Unit,
    Machine.run (step countingOps) (initial 0 30 ()) [.changeFramerate 15] = some s ∧
    Machine.run (step countingOps) s [.sinkWants 20, .changeFramerate 30] = some s' ∧
    ¬ s'.capturer.getCurrentConfiguredFramerate ≤ 20 := by
  let c : FrameGeneratorCapturer ℕ Unit Unit := .create 0 30 ()
  have hrun : Machine.run (step countingOps) ⟨{ c with targetCaptureFps := 15 }, [], []⟩
      [.sinkWants 20, .changeFramerate 30] = some ⟨c, [], []⟩ := rfl
  refine ⟨⟨{ c with targetCaptureFps := 15 }, [], []⟩, ⟨c, [], []⟩, rfl, hrun, ?_⟩
  rw [(sinks_wish_is_kept_iff hrun (by simp)).2]
  decide

end CapturerRun

end Runs

end WebrtcGccNs3.Video
