import WebrtcGccNs3.Lib.Rotation
import Mathlib.Data.UInt

/-!
# Frames from files

`YuvFileGenerator` reads a frame at a time from its files, one file after the other, and
starts again with the first. Each frame is returned `frame_repeat_count` times. What the
generator returns is read off the joined list of the files' frames.
-/
namespace WebrtcGccNs3.Video

/-- A file that is open for reading. -/
structure File where
  bytes : List UInt8
  position : ℕ
  deriving DecidableEq

namespace File

/-- At most `count` bytes: those that are left. -/
def fread (file : File) (count : ℕ) : List UInt8 × File :=
  let read := (file.bytes.drop file.position).take count
  (read, { file with position := file.position + read.length })

def rewind (file : File) : File := { file with position := 0 }

end File

/-- The planes of an I420 buffer, with the bytes from one row to the next. -/
structure VideoFrameBuffer where
  width : ℕ
  height : ℕ
  dataY : List UInt8
  strideY : ℕ
  dataU : List UInt8
  strideU : ℕ
  dataV : List UInt8
  strideV : ℕ
  deriving DecidableEq

structure UpdateRect where
  offsetX : ℕ
  offsetY : ℕ
  width : ℕ
  height : ℕ
  deriving DecidableEq

structure VideoFrameData where
  buffer : Option VideoFrameBuffer
  updateRect : Option UpdateRect
  deriving DecidableEq

def sizeY (width height : ℕ) : ℕ := width * height

def sizeUv (width height : ℕ) : ℕ := (width + 1) / 2 * ((height + 1) / 2)

def readI420Buffer (width height : ℕ) (f : File) : Option VideoFrameBuffer × File :=
  let halfWidth := (width + 1) / 2
  let y := f.fread (sizeY width height)
  if y.1.length < sizeY width height then (none, y.2) else
  let u := y.2.fread (sizeUv width height)
  if u.1.length < sizeUv width height then (none, u.2) else
  let v := u.2.fread (sizeUv width height)
  if v.1.length < sizeUv width height then (none, v.2) else
  (some ⟨width, height, y.1, width, u.1, halfWidth, v.1, halfWidth⟩, v.2)

structure YuvFileGenerator where
  fileIndex : ℕ
  frameIndex : UInt64
  files : List File
  width : ℕ
  height : ℕ
  frameDisplayCount : ℕ
  currentDisplayCount : ℕ
  lastReadBuffer : Option VideoFrameBuffer

namespace YuvFileGenerator

/-- The frame index is `std::numeric_limits<size_t>::max()`, so that the first frame has index 0. -/
def create (files : List File) (width height frameRepeatCount : ℕ) : YuvFileGenerator where
  fileIndex := 0
  frameIndex := UInt64.ofNat (2 ^ 64 - 1)
  files := files
  width := width
  height := height
  frameDisplayCount := frameRepeatCount
  currentDisplayCount := 0
  lastReadBuffer := none

/-- No more frames to read in this file, rewind and move to next file. `none` where the `RTC_CHECK`
fails: there is no frame in the next file. -/
def moveToNextFile (gen : YuvFileGenerator) : Option YuvFileGenerator := do
  let files := gen.files.modify gen.fileIndex File.rewind
  let fileIndex := (gen.fileIndex + 1) % files.length
  let file ← files[fileIndex]?
  let read := readI420Buffer gen.width gen.height file
  guard read.1.isSome
  return { gen with
    frameIndex := 0
    fileIndex := fileIndex
    files := files.set fileIndex read.2
    lastReadBuffer := read.1 }

/-- With whether a new frame was loaded. -/
def readNextFrame (gen : YuvFileGenerator) : Option (Bool × YuvFileGenerator) := do
  let file ← gen.files[gen.fileIndex]?
  let read := readI420Buffer gen.width gen.height file
  let tried := { gen with
    files := gen.files.set gen.fileIndex read.2
    lastReadBuffer := read.1
    frameIndex := gen.frameIndex + 1 }
  let loaded ← if read.1.isSome then some tried else tried.moveToNextFile
  return (loaded.frameIndex != gen.frameIndex || loaded.fileIndex != gen.fileIndex, loaded)

def nextFrame (gen : YuvFileGenerator) : Option (VideoFrameData × YuvFileGenerator) := do
  let got ← if gen.currentDisplayCount = 0 then gen.readNextFrame else some (false, gen)
  let updateRect : UpdateRect := if got.1 then ⟨0, 0, gen.width, gen.height⟩ else ⟨0, 0, 0, 0⟩
  let count := got.2.currentDisplayCount + 1
  return (⟨got.2.lastReadBuffer, some updateRect⟩,
    { got.2 with currentDisplayCount := if count ≥ gen.frameDisplayCount then 0 else count })

/-- The next `n` frames. -/
def nextFrames (gen : YuvFileGenerator) : ℕ → Option (List VideoFrameData × YuvFileGenerator)
  | 0 => some ([], gen)
  | n + 1 => do
    let before ← gen.nextFrames n
    let frame ← before.2.nextFrame
    return (before.1 ++ [frame.1], frame.2)

end YuvFileGenerator

section Frames

variable (width height : ℕ)

def frameSize : ℕ := sizeY width height + sizeUv width height + sizeUv width height

/-- The frame at a place in a file. -/
def frameAt (bytes : List UInt8) (k : ℕ) : VideoFrameBuffer :=
  let data := bytes.drop (k * frameSize width height)
  { width := width
    height := height
    dataY := data.take (sizeY width height)
    strideY := width
    dataU := (data.drop (sizeY width height)).take (sizeUv width height)
    strideU := (width + 1) / 2
    dataV := (data.drop (sizeY width height + sizeUv width height)).take (sizeUv width height)
    strideV := (width + 1) / 2 }

/-- The frames of a file. What is left behind them is not a whole frame. -/
def framesOf (bytes : List UInt8) : List VideoFrameBuffer :=
  (List.range (bytes.length / frameSize width height)).map (frameAt width height bytes)

/-- The frames of all files. -/
def allFrames (videos : List (List UInt8)) : List VideoFrameBuffer :=
  (videos.map (framesOf width height)).flatten

variable {width height}

theorem frameSize_pos (hw : 0 < width) (hh : 0 < height) : 0 < frameSize width height := by
  have hpos := Nat.mul_pos hw hh
  unfold frameSize sizeY
  omega

@[simp] theorem length_framesOf (bytes : List UInt8) :
    (framesOf width height bytes).length = bytes.length / frameSize width height := by
  rw [framesOf, List.length_map, List.length_range]

theorem length_fread (file : File) (count : ℕ) :
    (file.fread count).1.length = min count (file.bytes.length - file.position) := by
  rw [File.fread, List.length_take, List.length_drop]

theorem fread_eq {bytes : List UInt8} {position count : ℕ} (h : position + count ≤ bytes.length) :
    File.fread ⟨bytes, position⟩ count = ((bytes.drop position).take count, ⟨bytes, position + count⟩) := by
  have hlength := length_fread ⟨bytes, position⟩ count
  simp only [File.fread] at hlength ⊢
  rw [hlength, min_eq_left (by omega)]

/-- A frame that is there is read. -/
theorem readI420Buffer_some {bytes : List UInt8} {k : ℕ}
    (h : (k + 1) * frameSize width height ≤ bytes.length) :
    readI420Buffer width height ⟨bytes, k * frameSize width height⟩ =
      (some (frameAt width height bytes k), ⟨bytes, (k + 1) * frameSize width height⟩) := by
  have hsize : frameSize width height = sizeY width height + sizeUv width height + sizeUv width height := rfl
  rw [Nat.succ_mul] at h ⊢
  have hplane : ∀ position count : ℕ, position + count ≤ bytes.length →
      ((bytes.drop position).take count).length = count := by
    intro position count hle
    rw [List.length_take, List.length_drop]
    omega
  simp only [readI420Buffer]
  rw [fread_eq (by omega)]
  simp only
  rw [fread_eq (by omega)]
  simp only
  rw [fread_eq (by omega), if_neg (by rw [hplane _ _ (by omega)]; omega),
    if_neg (by rw [hplane _ _ (by omega)]; omega), if_neg (by rw [hplane _ _ (by omega)]; omega)]
  simp only [frameAt, List.drop_drop, hsize, Nat.add_assoc]

/-- Behind the last whole frame there is no more. -/
theorem readI420Buffer_none {bytes : List UInt8} {k : ℕ} (hle : k * frameSize width height ≤ bytes.length)
    (h : bytes.length < (k + 1) * frameSize width height) :
    ∃ position, readI420Buffer width height ⟨bytes, k * frameSize width height⟩ =
      (none, ⟨bytes, position⟩) := by
  have hsize : frameSize width height = sizeY width height + sizeUv width height + sizeUv width height := rfl
  rw [Nat.succ_mul] at h
  simp only [readI420Buffer, length_fread]
  rcases Nat.lt_or_ge bytes.length (k * frameSize width height + sizeY width height) with hy | hy
  · rw [if_pos (by omega)]
    exact ⟨_, rfl⟩
  · rw [if_neg (by omega), fread_eq hy]
    simp only
    rcases Nat.lt_or_ge bytes.length
      (k * frameSize width height + sizeY width height + sizeUv width height) with hu | hu
    · rw [if_pos (by omega)]
      exact ⟨_, rfl⟩
    · rw [if_neg (by omega), fread_eq hu]
      simp only
      rw [if_pos (by omega)]
      exact ⟨_, rfl⟩

end Frames

section Files

variable {videos : List (List UInt8)} {i position : ℕ} {bytes : List UInt8}

/-- The files when one of them is read and the others are at their start. -/
def filesAt (videos : List (List UInt8)) (i position : ℕ) : List File :=
  videos.mapIdx fun k bytes => ⟨bytes, if k = i then position else 0⟩

@[simp] theorem length_filesAt : (filesAt videos i position).length = videos.length := List.length_mapIdx

theorem getElem?_filesAt (h : videos[i]? = some bytes) :
    (filesAt videos i position)[i]? = some ⟨bytes, position⟩ := by
  rw [filesAt, List.getElem?_mapIdx, h]
  simp

theorem set_filesAt (h : videos[i]? = some bytes) (position' : ℕ) :
    (filesAt videos i position).set i ⟨bytes, position'⟩ = filesAt videos i position' := by
  refine List.ext_getElem? fun k => ?_
  rw [List.getElem?_set, length_filesAt]
  rcases eq_or_ne i k with rfl | hne
  · rw [if_pos rfl, if_pos (List.getElem?_eq_some_iff.mp h).1, getElem?_filesAt h]
  · simp only [if_neg hne, filesAt, List.getElem?_mapIdx, if_neg hne.symm]

theorem rewind_filesAt : (filesAt videos i position).modify i File.rewind = filesAt videos i 0 := by
  refine List.ext_getElem? fun k => ?_
  rw [List.getElem?_modify, filesAt, filesAt, List.getElem?_mapIdx, List.getElem?_mapIdx]
  rcases eq_or_ne i k with rfl | hne
  · simp [File.rewind, Function.comp_def]
  · simp [hne, hne.symm]

theorem filesAt_zero (j : ℕ) : filesAt videos i 0 = filesAt videos j 0 := by
  simp only [filesAt, ite_self]

end Files

namespace YuvFileGenerator

open Rotation (Place)

/-- The generator is at a place of its videos. -/
structure At (videos : List (List UInt8)) (place : Place) (gen : YuvFileGenerator) : Prop where
  files : gen.files = filesAt videos place.list (place.item * frameSize gen.width gen.height)
  fileIndex : gen.fileIndex = place.list
  frameIndex : gen.frameIndex + 1 = UInt64.ofNat place.item

/-- A frame was loaded, and nothing else changed but where the generator is. -/
structure Loaded (buffer : VideoFrameBuffer) (gen gen' : YuvFileGenerator) : Prop where
  width_eq : gen'.width = gen.width
  height_eq : gen'.height = gen.height
  repeat_eq : gen'.frameDisplayCount = gen.frameDisplayCount
  count_eq : gen'.currentDisplayCount = gen.currentDisplayCount
  buffer_eq : gen'.lastReadBuffer = some buffer

/-- What the generator is created with: frames with pixels, of a size that an `int` can hold, and in
every file one or more. -/
structure Playable (videos : List (List UInt8)) (width height : ℕ) : Prop where
  width_pos : 0 < width
  height_pos : 0 < height
  frameSize_lt : frameSize width height < 2 ^ 31
  videos_ne_nil : videos ≠ []
  frames_le : ∀ bytes ∈ videos, frameSize width height ≤ bytes.length
  length_lt : ∀ bytes ∈ videos, bytes.length < 2 ^ 63

variable {videos : List (List UInt8)} {place place' : Place} {gen : YuvFileGenerator}
  {buffer : VideoFrameBuffer}

theorem Playable.framesOf_ne_nil {width height : ℕ} (h : Playable videos width height) :
    ∀ list ∈ videos.map (framesOf width height), list ≠ [] := by
  intro list hlist
  obtain ⟨bytes, hbytes, rfl⟩ := List.mem_map.mp hlist
  refine List.ne_nil_of_length_pos ?_
  rw [length_framesOf]
  exact Nat.div_pos (h.frames_le bytes hbytes) (frameSize_pos h.width_pos h.height_pos)

theorem moveToNextFile_spec (gen : YuvFileGenerator) (h : Playable videos gen.width gen.height)
    {position : ℕ} (hfiles : gen.files = filesAt videos gen.fileIndex position) :
    ∃ bytes, videos[(gen.fileIndex + 1) % videos.length]? = some bytes ∧
      gen.moveToNextFile = some { gen with
        frameIndex := 0
        fileIndex := (gen.fileIndex + 1) % videos.length
        files := filesAt videos ((gen.fileIndex + 1) % videos.length) (frameSize gen.width gen.height)
        lastReadBuffer := some (frameAt gen.width gen.height bytes 0) } := by
  have hlt : (gen.fileIndex + 1) % videos.length < videos.length :=
    Nat.mod_lt _ (List.length_pos_of_ne_nil h.videos_ne_nil)
  have hbytes := List.getElem?_eq_getElem hlt
  have hroom : (0 + 1) * frameSize gen.width gen.height ≤
      videos[(gen.fileIndex + 1) % videos.length].length := by
    rw [Nat.zero_add, Nat.one_mul]
    exact h.frames_le _ (List.getElem_mem hlt)
  have hread := readI420Buffer_some hroom
  rw [Nat.zero_mul, Nat.zero_add, Nat.one_mul] at hread
  refine ⟨_, hbytes, ?_⟩
  simp only [moveToNextFile, hfiles, rewind_filesAt, length_filesAt]
  rw [filesAt_zero ((gen.fileIndex + 1) % videos.length), getElem?_filesAt hbytes]
  simp [hread, set_filesAt hbytes]

/-- One read follows the rotation through the videos' frames. -/
theorem readNextFrame_follows (h : Playable videos gen.width gen.height) (hat : At videos place gen)
    (hwithin : ∃ list, (videos.map (framesOf gen.width gen.height))[place.list]? = some list ∧
      place.item ≤ list.length)
    (hnext : Rotation.next (videos.map (framesOf gen.width gen.height)) place = some (buffer, place')) :
    ∃ gen', gen.readNextFrame =
        some (gen'.frameIndex != gen.frameIndex || gen'.fileIndex != gen.fileIndex, gen') ∧
      At videos place' gen' ∧ Loaded buffer gen gen' := by
  obtain ⟨list, hlist, hle⟩ := hwithin
  obtain ⟨bytes, hbytes, rfl⟩ : ∃ bytes, videos[place.list]? = some bytes ∧
      framesOf gen.width gen.height bytes = list := by
    rw [List.getElem?_map, Option.map_eq_some_iff] at hlist
    exact hlist
  obtain ⟨hfiles, hindex, hframe⟩ := hat
  have hsize := frameSize_pos h.width_pos h.height_pos
  rw [length_framesOf] at hle
  rcases Nat.lt_or_ge place.item (bytes.length / frameSize gen.width gen.height) with hmore | hend
  · have hread := readI420Buffer_some ((Nat.le_div_iff_mul_le hsize).mp hmore)
    have hitem : (framesOf gen.width gen.height bytes)[place.item]? =
        some (frameAt gen.width gen.height bytes place.item) := by
      rw [framesOf, List.getElem?_map, List.getElem?_range hmore]
      rfl
    simp only [Rotation.next, hlist, hitem, Option.bind_eq_bind, Option.bind_some, Option.pure_def,
      Option.some.injEq, Prod.mk.injEq] at hnext
    obtain ⟨rfl, rfl⟩ := hnext
    refine ⟨{ gen with
      files := filesAt videos place.list ((place.item + 1) * frameSize gen.width gen.height)
      lastReadBuffer := some (frameAt gen.width gen.height bytes place.item)
      frameIndex := gen.frameIndex + 1 }, ?_, ⟨rfl, hindex, ?_⟩, ⟨rfl, rfl, rfl, rfl, rfl⟩⟩
    · simp [readNextFrame, hfiles, hindex, getElem?_filesAt hbytes, hread, set_filesAt hbytes]
    · show gen.frameIndex + 1 + 1 = _
      rw [hframe, UInt64.ofNat_add]
      rfl
  · obtain ⟨position, hread⟩ := readI420Buffer_none ((Nat.le_div_iff_mul_le hsize).mp hle)
      ((Nat.div_lt_iff_lt_mul hsize).mp (Nat.lt_succ_of_le hend))
    obtain ⟨following, hfollowing, hmove⟩ := moveToNextFile_spec
      { gen with
        files := filesAt videos place.list position
        lastReadBuffer := none
        frameIndex := gen.frameIndex + 1 } h (by rw [hindex])
    simp only [hindex] at hfollowing hmove
    have hitem : (framesOf gen.width gen.height bytes)[place.item]? = none := by
      rw [List.getElem?_eq_none_iff, length_framesOf]
      exact hend
    have hfirst : (framesOf gen.width gen.height following)[0]? =
        some (frameAt gen.width gen.height following 0) := by
      have hpos := Nat.div_pos (h.frames_le _ (List.mem_of_getElem? hfollowing)) hsize
      rw [framesOf, List.getElem?_map, List.getElem?_range hpos]
      rfl
    simp only [Rotation.next, hlist, hitem, List.length_map, List.getElem?_map, hfollowing, hfirst,
      Option.map_some, Option.bind_eq_bind, Option.bind_some, Option.pure_def, Option.some.injEq,
      Prod.mk.injEq] at hnext
    obtain ⟨rfl, rfl⟩ := hnext
    refine ⟨{ gen with
      frameIndex := 0
      fileIndex := (place.list + 1) % videos.length
      files := filesAt videos ((place.list + 1) % videos.length) (frameSize gen.width gen.height)
      lastReadBuffer := some (frameAt gen.width gen.height following 0) }, ?_,
      ⟨?_, rfl, rfl⟩, ⟨rfl, rfl, rfl, rfl, rfl⟩⟩
    · simp [readNextFrame, hfiles, hindex, getElem?_filesAt hbytes, hread, set_filesAt hbytes, hmove]
    · rw [Nat.one_mul]

theorem loaded_iff {gen' : YuvFileGenerator} (hat : At videos place gen) (hat' : At videos place' gen')
    (hitem : place.item < 2 ^ 64) (hitem' : place'.item < 2 ^ 64) :
    (gen'.frameIndex != gen.frameIndex || gen'.fileIndex != gen.fileIndex) = decide (place' ≠ place) := by
  have hframe : gen'.frameIndex = gen.frameIndex ↔ place'.item = place.item := by
    rw [← UInt64.add_left_inj 1, hat'.frameIndex, hat.frameIndex, ← UInt64.toNat_inj,
      UInt64.toNat_ofNat_of_lt' hitem, UInt64.toNat_ofNat_of_lt' hitem']
  rw [Bool.eq_iff_iff, hat.fileIndex, hat'.fileIndex]
  obtain ⟨l, k⟩ := place
  obtain ⟨l', k'⟩ := place'
  simp only [Bool.or_eq_true, bne_iff_ne, ne_eq, hframe, decide_eq_true_eq, Place.mk.injEq]
  tauto

theorem Playable.item_lt {width height n : ℕ} (h : Playable videos width height)
    (hreads : Rotation.Reads (videos.map (framesOf width height)) n place) : place.item < 2 ^ 64 := by
  obtain ⟨list, hlist, hle⟩ := hreads.within
  rw [List.getElem?_map, Option.map_eq_some_iff] at hlist
  obtain ⟨bytes, hbytes, rfl⟩ := hlist
  have hlt := h.length_lt bytes (List.mem_of_getElem? hbytes)
  have hdiv := Nat.div_le_self bytes.length (frameSize width height)
  rw [length_framesOf] at hle
  omega

/-- The frame with number `k`, from 0. A frame that is returned again is not an update, nor is the
frame that is all there is. -/
def shown (videos : List (List UInt8)) (width height frameRepeatCount k : ℕ) : VideoFrameData :=
  let all := allFrames width height videos
  { buffer := all[k / frameRepeatCount % all.length]?
    updateRect := some (if k % frameRepeatCount = 0 ∧ (k = 0 ∨ all.length ≠ 1) then ⟨0, 0, width, height⟩
      else ⟨0, 0, 0, 0⟩) }

/-- A generator that has returned `n` frames. -/
structure Returned (videos : List (List UInt8)) (width height frameRepeatCount n : ℕ)
    (gen : YuvFileGenerator) : Prop where
  width_eq : gen.width = width
  height_eq : gen.height = height
  repeat_eq : gen.frameDisplayCount = frameRepeatCount
  count : gen.currentDisplayCount = n % frameRepeatCount
  place : ∃ place, At videos place gen ∧
    Rotation.Reads (videos.map (framesOf width height))
      (n / frameRepeatCount + if n % frameRepeatCount = 0 then 0 else 1) place ∧
    (0 < place.item ↔ 0 < n)
  last : 0 < n → gen.lastReadBuffer =
    (allFrames width height videos)[(n - 1) / frameRepeatCount % (allFrames width height videos).length]?

variable {width height frameRepeatCount n : ℕ}

theorem returned_create (h : Playable videos width height) :
    Returned videos width height frameRepeatCount 0
      (create (videos.map fun bytes => ⟨bytes, 0⟩) width height frameRepeatCount) where
  width_eq := rfl
  height_eq := rfl
  repeat_eq := rfl
  count := (Nat.zero_mod _).symm
  place := by
    refine ⟨⟨0, 0⟩, ⟨?_, rfl, ?_⟩, ?_, Iff.rfl⟩
    · refine List.ext_getElem? fun k => ?_
      simp [create, filesAt]
    · show UInt64.ofNat (2 ^ 64 - 1) + 1 = UInt64.ofNat 0
      decide
    · rw [Nat.zero_mod, Nat.zero_div, if_pos rfl]
      exact Rotation.reads_start (by simpa using h.videos_ne_nil)
  last := fun hpos => absurd hpos (Nat.lt_irrefl 0)

/-- After `n + 1` frames the rotation is behind the frame that was returned. -/
theorem reads_succ : (n + 1) / frameRepeatCount + (if (n + 1) % frameRepeatCount = 0 then 0 else 1) =
    n / frameRepeatCount + 1 := by
  rw [Nat.succ_div]
  simp only [Nat.dvd_iff_mod_eq_zero]
  split <;> omega

theorem count_succ (hr : 0 < frameRepeatCount) :
    (if n % frameRepeatCount + 1 ≥ frameRepeatCount then 0 else n % frameRepeatCount + 1) =
      (n + 1) % frameRepeatCount := by
  have hlt := Nat.mod_lt n hr
  have hstep : (n + 1) % frameRepeatCount = (n % frameRepeatCount + 1) % frameRepeatCount := by
    rw [Nat.mod_add_mod]
  rw [hstep]
  split
  · rw [show n % frameRepeatCount + 1 = frameRepeatCount by omega, Nat.mod_self]
  · exact (Nat.mod_eq_of_lt (by omega)).symm

/-- A frame that is returned again. -/
theorem pred_div (hne : n % frameRepeatCount ≠ 0) : (n - 1) / frameRepeatCount = n / frameRepeatCount := by
  cases n with
  | zero => rfl
  | succ m =>
    rw [Nat.succ_div, if_neg (fun hdvd => hne (Nat.mod_eq_zero_of_dvd hdvd)), Nat.succ_sub_one,
      Nat.add_zero]

theorem nextFrame_spec (h : Playable videos width height) (hr : 0 < frameRepeatCount)
    (hgen : Returned videos width height frameRepeatCount n gen) :
    ∃ gen', gen.nextFrame = some (shown videos width height frameRepeatCount n, gen') ∧
      Returned videos width height frameRepeatCount (n + 1) gen' := by
  obtain ⟨rfl, rfl, rfl, hcount, ⟨place, hat, hreads, hitem⟩, hlast⟩ := hgen
  rcases eq_or_ne (n % gen.frameDisplayCount) 0 with hzero | hne
  · rw [if_pos hzero, Nat.add_zero] at hreads
    obtain ⟨buffer, place', hnext, hbuffer, hreads', hitem'⟩ :=
      Rotation.next_spec h.framesOf_ne_nil hreads
    obtain ⟨gen', hread, hat', hloaded⟩ := readNextFrame_follows h hat hreads.within hnext
    rw [loaded_iff hat hat' (h.item_lt hreads) (h.item_lt hreads')] at hread
    have hnew : place' ≠ place ↔ n = 0 ∨ (allFrames gen.width gen.height videos).length ≠ 1 := by
      rcases Nat.eq_zero_or_pos n with rfl | hpos
      · have hdiff : place' ≠ place := by
          rintro rfl
          exact absurd (hitem.mp hitem') (Nat.lt_irrefl 0)
        exact iff_of_true hdiff (Or.inl rfl)
      · rw [ne_eq, Rotation.same_place_iff h.framesOf_ne_nil hreads hreads' (hitem.mpr hpos) hitem']
        exact ⟨Or.inr, fun hor => hor.resolve_left (Nat.ne_of_gt hpos)⟩
    change (allFrames gen.width gen.height videos)[_ %
      (allFrames gen.width gen.height videos).length]? = _ at hbuffer
    refine ⟨{ gen' with currentDisplayCount := (n + 1) % gen.frameDisplayCount }, ?_, ?_⟩
    · simp only [nextFrame, hcount, if_pos hzero, hread]
      simp only [Option.bind_eq_bind, Option.bind_some, decide_eq_true_eq, hloaded.count_eq, hcount,
        count_succ hr, hloaded.buffer_eq, shown, hnew, hbuffer]
      simp only [hzero, true_and]
      rfl
    · refine ⟨hloaded.width_eq, hloaded.height_eq, hloaded.repeat_eq, rfl,
        ⟨place', ⟨hat'.files, hat'.fileIndex, hat'.frameIndex⟩, ?_,
          ⟨fun _ => Nat.succ_pos n, fun _ => hitem'⟩⟩,
        fun _ => ?_⟩
      · rw [reads_succ]
        exact hreads'
      · rw [Nat.succ_sub_one, hbuffer]
        exact hloaded.buffer_eq
  · have hpos : 0 < n := Nat.pos_of_ne_zero fun hn => hne (by rw [hn, Nat.zero_mod])
    rw [if_neg hne, ← reads_succ] at hreads
    have hagain := hlast hpos
    rw [pred_div hne] at hagain
    refine ⟨{ gen with currentDisplayCount := (n + 1) % gen.frameDisplayCount }, ?_, ?_⟩
    · simp only [nextFrame, hcount, if_neg hne]
      simp only [Option.bind_eq_bind, Option.bind_some, hcount, count_succ hr, shown, hagain, hne,
        false_and]
      rfl
    · exact ⟨rfl, rfl, rfl, rfl, ⟨place, ⟨hat.files, hat.fileIndex, hat.frameIndex⟩, hreads,
        ⟨fun _ => Nat.succ_pos n, fun _ => hitem.mpr hpos⟩⟩, fun _ => hagain⟩

theorem nextFrames_spec (h : Playable videos width height) (hr : 0 < frameRepeatCount) (n : ℕ) :
    ∃ gen, (create (videos.map fun bytes => ⟨bytes, 0⟩) width height frameRepeatCount).nextFrames n =
        some ((List.range n).map (shown videos width height frameRepeatCount), gen) ∧
      Returned videos width height frameRepeatCount n gen := by
  induction n with
  | zero => exact ⟨_, rfl, returned_create h⟩
  | succ n ih =>
    obtain ⟨gen, hframes, hgen⟩ := ih
    obtain ⟨gen', hframe, hgen'⟩ := nextFrame_spec h hr hgen
    refine ⟨gen', ?_, hgen'⟩
    simp [nextFrames, hframes, hframe, List.range_succ]

/-- The frames of all files come in their order, round and round, each `frame_repeat_count` times. The
update is empty for a frame that is returned again and, from the second time on, for the frame that is
all there is. -/
theorem frames_come_round (h : Playable videos width height) (hr : 0 < frameRepeatCount) (n : ℕ) :
    ∃ frames gen, (create (videos.map fun bytes => ⟨bytes, 0⟩) width height frameRepeatCount).nextFrames n =
        some (frames, gen) ∧ frames.length = n ∧
      ∀ k < n, ∃ buffer, frames[k]? = some
        { buffer := some buffer
          updateRect := some (if k % frameRepeatCount = 0 ∧
              (k = 0 ∨ (allFrames width height videos).length ≠ 1) then ⟨0, 0, width, height⟩
            else ⟨0, 0, 0, 0⟩) } ∧
        (allFrames width height videos)[k / frameRepeatCount % (allFrames width height videos).length]? =
          some buffer := by
  obtain ⟨gen, hframes, -⟩ := nextFrames_spec h hr n
  refine ⟨_, gen, hframes, by rw [List.length_map, List.length_range], fun k hk => ?_⟩
  obtain ⟨bytes, rest, hvideos⟩ := List.exists_cons_of_ne_nil h.videos_ne_nil
  have hpos : 0 < (allFrames width height videos).length := by
    have hfirst : framesOf width height bytes ∈ videos.map (framesOf width height) := by
      rw [hvideos, List.map_cons]
      exact List.mem_cons_self
    exact (List.length_pos_of_ne_nil (h.framesOf_ne_nil _ hfirst)).trans_le
      (List.sublist_flatten_of_mem hfirst).length_le
  have hlt := Nat.mod_lt (k / frameRepeatCount) hpos
  refine ⟨_, ?_, List.getElem?_eq_getElem hlt⟩
  rw [List.getElem?_map, List.getElem?_range hk, Option.map_some, shown, List.getElem?_eq_getElem hlt]

/-- Two frames in the first file and one in the second, each returned twice. -/
theorem first_frame_comes_round : ∃ frames gen,
    (create [⟨[1, 2, 3, 4, 5, 6], 0⟩, ⟨[7, 8, 9], 0⟩] 1 1 2).nextFrames 7 = some (frames, gen) ∧
      frames[6]? = some ⟨some ⟨1, 1, [1], 1, [2], 1, [3], 1⟩, some ⟨0, 0, 1, 1⟩⟩ := by
  have hplay : Playable [[1, 2, 3, 4, 5, 6], [7, 8, 9]] 1 1 :=
    ⟨by decide, by decide, by decide, by decide, by decide, by decide⟩
  obtain ⟨frames, gen, hframes, -, h⟩ := frames_come_round hplay (show 0 < 2 by decide) 7
  obtain ⟨buffer, hframe, hbuffer⟩ := h 6 (by decide)
  obtain rfl : ⟨1, 1, [1], 1, [2], 1, [3], 1⟩ = buffer := Option.some.inj hbuffer
  exact ⟨frames, gen, hframes, hframe⟩

end YuvFileGenerator

end WebrtcGccNs3.Video
