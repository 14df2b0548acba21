import Mathlib.Data.Rat.Floor
import WebrtcGccNs3.Lib.Machine

/-!
# FakeEncoder

The encoder of fake_encoder.cc: `NextFrame` sizes the layers of a frame, and `Encode`
fills an image for each layer and gives it to a callback. A subclass changes the image in
its `EncodeHook`, which is a parameter. The bitrate allocations are libwebrtc's, and so
are parameters too. A `double` is its value. A division by zero, or an index past the end
of an array, is `none`.
-/
namespace WebrtcGccNs3.Video

/-- What the encoder uses of libwebrtc's `VideoBitrateAllocation`, by spatial and temporal index. -/
structure BitrateAllocation (α : Type) where
  getBitrate : α → ℕ → ℕ → UInt32
  hasBitrate : α → ℕ → ℕ → Bool
  setBitrate : α → ℕ → ℕ → UInt32 → α
  getSumKbps : α → UInt32
  kMaxSpatialLayers : ℕ
  kMaxTemporalStreams : ℕ

structure RateControlParameters (α : Type) where
  bitrate : α
  framerateFps : ℚ

structure SimulcastStream where
  width : ℕ
  height : ℕ
  numberOfTemporalLayers : ℕ

structure VideoCodec where
  startBitrate : UInt32
  maxFramerate : UInt32
  /-- The first `numberOfSimulcastStreams` of them. -/
  simulcastStream : List SimulcastStream

inductive VideoFrameType where
  | emptyFrame
  | videoFrameKey
  | videoFrameDelta
  deriving DecidableEq

structure SpatialLayer where
  size : Int := 0
  temporalId : ℕ := 0
  deriving DecidableEq

structure FrameInfo where
  keyframe : Bool := false
  layers : List SpatialLayer := []
  deriving DecidableEq

/-- A fragment of libwebrtc's `RTPFragmentationHeader`. -/
structure Fragment where
  offset : ℕ
  length : ℕ
  deriving DecidableEq

structure EncodedImage where
  data : List UInt8
  timestamp : UInt32
  frameType : VideoFrameType
  encodedWidth : ℕ
  encodedHeight : ℕ
  /-- Where it was set. -/
  qp : Option Int
  spatialIndex : ℕ
  /-- What the callback is given beside the image, where the hook makes it. -/
  fragmentation : Option (List Fragment) := none
  deriving DecidableEq

structure FakeEncoder (α : Type) where
  config : VideoCodec
  currentRateSettings : RateControlParameters α
  maxTargetBitrateKbps : Int := -1
  pendingKeyframe : Bool := true
  counter : UInt32 := 0
  qp : Option Int := none
  lastFrameInfo : FrameInfo := {}
  debtBytes : ℕ := 0

def kKeyframeSizeFactor : ℕ := 5

def kMinPayLoadLength : Int := 14

/-- The inverse proportion of the frames of each layer, by the number of layers. -/
def kTemporalLayerRateFactor : List (List UInt32) :=
  [[1, 0, 0, 0], [2, 2, 0, 0], [4, 4, 2, 0], [8, 8, 4, 2]]

namespace FakeEncoder

variable {α η : Type} (A : BitrateAllocation α)

/-! ## NextFrame -/

/-- The first loop: the layers with a bitrate, and the temporal index of each. -/
def nextLayers (bitrate : α) (last : List SpatialLayer) :
    ℕ → List SimulcastStream → Option (List SpatialLayer)
  | _, [] => some []
  | i, stream :: streams => do
    let rest ← nextLayers bitrate last (i + 1) streams
    if A.getBitrate bitrate i 0 > 0 then
      match last[i]? with
      | some layer =>
        if stream.numberOfTemporalLayers = 0 then none
        else some ({ temporalId := (layer.temporalId + 1) % stream.numberOfTemporalLayers } :: rest)
      | none => some ({} :: rest)
    else some rest

/-- The target of a layer in bytes, of `count` layers, in 32 bits. -/
def avgFrameSize (bitrate : α) (framerate : Int) (count i temporalId : ℕ) : Option ℕ := do
  let row ← kTemporalLayerRateFactor[count - 1]?
  let factor ← row[i]?
  let divisor := UInt32.ofInt (8 * framerate)
  if divisor = 0 then none
  else some ((A.getBitrate bitrate i temporalId + 7) * factor / divisor).toNat

/-- The size of a layer with this target, as an `int`, and the debt, a `size_t`. -/
def sizeLayer (keyframe : Bool) (debtBytes avg : ℕ) : Int × ℕ :=
  if keyframe then
    ((Int32.ofNat (kKeyframeSizeFactor * avg)).toInt,
      (debtBytes + (kKeyframeSizeFactor - 1) * avg) % 2 ^ 64)
  else if debtBytes > 0 then
    let paymentSize := min (avg / 2) debtBytes
    ((Int32.ofNat (avg - paymentSize)).toInt, debtBytes - paymentSize)
  else ((Int32.ofNat avg).toInt, debtBytes)

/-- The second loop. -/
def sizeLayers (keyframe : Bool) (bitrate : α) (framerate : Int) (count : ℕ) :
    ℕ → ℕ → List SpatialLayer → Option (List SpatialLayer × ℕ)
  | _, debtBytes, [] => some ([], debtBytes)
  | i, debtBytes, layer :: layers => do
    let temporalId := if keyframe then 0 else layer.temporalId
    let avg ← avgFrameSize A bitrate framerate count i temporalId
    let sized := sizeLayer keyframe debtBytes avg
    let (layers, debtBytes) ← sizeLayers keyframe bitrate framerate count (i + 1) sized.2 layers
    return ({ size := sized.1, temporalId } :: layers, debtBytes)

def nextFrame (encoder : FakeEncoder α) (frameTypes : Option (List VideoFrameType)) (keyframe : Bool)
    (streams : List SimulcastStream) (bitrate : α) (framerate : Int) :
    Option (FrameInfo × FakeEncoder α) := do
  let keyframe := keyframe || (frameTypes.getD []).contains .videoFrameKey
  let last := encoder.lastFrameInfo.layers
  let layers ← nextLayers A bitrate last 0 streams
  -- a layer is added
  let keyframe := keyframe || last.length < layers.length
  let (layers, debtBytes) ←
    sizeLayers A keyframe bitrate framerate layers.length 0 encoder.debtBytes layers
  return ({ keyframe, layers }, { encoder with lastFrameInfo := { keyframe, layers }, debtBytes })

/-! ## Encode -/

def writeCounter (data : List UInt8) (payload : ℕ) (counter : UInt32) : List UInt8 :=
  (((data.set payload (counter &&& 0xFF).toUInt8).set (payload + 1)
    ((counter &&& 0xFF00) >>> 8).toUInt8).set (payload + 2)
    ((counter &&& 0xFF0000) >>> 16).toUInt8).set (payload + 3) ((counter &&& 0xFF000000) >>> 24).toUInt8

/-- The image of a layer, before the hook. -/
def fillImage (counter timestamp : UInt32) (keyframe : Bool) (qp : Option Int) (stream : SimulcastStream)
    (i : ℕ) (size : ℕ) : EncodedImage where
  data := writeCounter (List.replicate size 9) (size - 4) counter
  timestamp := timestamp
  frameType := if keyframe then .videoFrameKey else .videoFrameDelta
  encodedWidth := stream.width
  encodedHeight := stream.height
  qp := qp
  spatialIndex := i

/-- The hook, with the data of its own, and what the callback answers. -/
structure Output (η : Type) where
  encodeHook : η → EncodedImage → η × EncodedImage
  accepts : EncodedImage → Bool

/-- The loop over the layers: the images given to the callback, and whether it took them all. -/
def encodeLayers (out : Output η) (image : SimulcastStream → ℕ → ℕ → EncodedImage)
    (streams : List SimulcastStream) :
    ℕ → List SpatialLayer → η → Option (η × List EncodedImage × Bool)
  | _, [], own => some (own, [], true)
  | i, layer :: layers, own =>
    if layer.size < kMinPayLoadLength then encodeLayers out image streams (i + 1) layers own
    else do
      let stream ← streams[i]?
      let (own, encoded) := out.encodeHook own (image stream i layer.size.toNat)
      if out.accepts encoded then
        let (own, images, success) ← encodeLayers out image streams (i + 1) layers own
        return (own, encoded :: images, success)
      else return (own, [encoded], false)

/-- `framerate_fps`, or the maximum in its place, to the nearest whole number. -/
def framerate (encoder : FakeEncoder α) : Int :=
  let fps := encoder.currentRateSettings.framerateFps
  let fps := if fps ≤ 0 then ((encoder.config.maxFramerate.toUInt8.toNat : ℕ) : ℚ) else fps
  ⌊fps + 1 / 2⌋

/-- The frame of this call, the images given to the callback, and whether it took them all. -/
def encode (encoder : FakeEncoder α) (own : η) (out : Output η) (timestamp : UInt32)
    (frameTypes : Option (List VideoFrameType)) :
    Option (FrameInfo × FakeEncoder α × η × List EncodedImage × Bool) := do
  let streams := encoder.config.simulcastStream
  let counter := encoder.counter
  let (frameInfo, encoder) ← nextFrame A
    { encoder with pendingKeyframe := false, counter := encoder.counter + 1 }
    frameTypes encoder.pendingKeyframe streams encoder.currentRateSettings.bitrate encoder.framerate
  let image := fillImage counter timestamp frameInfo.keyframe encoder.qp
  let (own, images, success) ← encodeLayers out image streams 0 frameInfo.layers own
  return (frameInfo, encoder, own, images, success)

/-- The encoder's own `EncodeHook` does nothing. -/
def encodeHook (own : Unit) (image : EncodedImage) : Unit × EncodedImage := (own, image)

/-! ## Settings -/

def initEncode (encoder : FakeEncoder α) (config : VideoCodec) : FakeEncoder α :=
  { encoder with
    config := config
    currentRateSettings := {
      bitrate := A.setBitrate encoder.currentRateSettings.bitrate 0 0 (config.startBitrate * 1000)
      framerateFps := config.maxFramerate.toNat }
    pendingKeyframe := true
    lastFrameInfo := {} }

/-- `SetRates` scales an allocation above the given maximum. -/
def setRates (encoder : FakeEncoder α) (parameters : RateControlParameters α) : FakeEncoder α :=
  let allocatedBitrateKbps := (A.getSumKbps parameters.bitrate).toInt32.toInt
  let maxKbps := encoder.maxTargetBitrateKbps
  let scale (bitrate : α) (spatialIdx temporalIdx : ℕ) : α :=
    if A.hasBitrate bitrate spatialIdx temporalIdx then
      A.setBitrate bitrate spatialIdx temporalIdx (UInt32.ofInt
        ((A.getBitrate bitrate spatialIdx temporalIdx).toNat * maxKbps / allocatedBitrateKbps))
    else bitrate
  let bitrate :=
    if maxKbps > 0 ∧ allocatedBitrateKbps > maxKbps then
      (List.range A.kMaxSpatialLayers).foldl
        (fun bitrate spatialIdx => (List.range A.kMaxTemporalStreams).foldl (scale · spatialIdx ·) bitrate)
        parameters.bitrate
    else parameters.bitrate
  { encoder with currentRateSettings := { parameters with bitrate := bitrate } }

def setMaxBitrate (encoder : FakeEncoder α) (maxKbps : Int) : FakeEncoder α :=
  setRates A { encoder with maxTargetBitrateKbps := maxKbps } encoder.currentRateSettings

/-- The targets of a frame's layers. -/
def targets (bitrate : α) (framerate : Int) (frame : FrameInfo) : List ℕ :=
  frame.layers.zipIdx.map fun (layer, i) =>
    (avgFrameSize A bitrate framerate frame.layers.length i layer.temporalId).getD 0

/-- A call of `Encode`: what it was to encode with, and what came of it. -/
structure Encoded where
  info : FrameInfo
  streams : List SimulcastStream
  targets : List ℕ
  /-- The images given to the callback. -/
  images : List EncodedImage
  success : Bool

end FakeEncoder

/-- An encoder and its calls of `Encode` so far. -/
structure EncoderRun (α η : Type) where
  encoder : FakeEncoder α
  own : η
  frames : List FakeEncoder.Encoded := []

namespace EncoderRun

variable {α η : Type}

inductive Act (α : Type) where
  | initEncode (config : VideoCodec)
  | setRates (parameters : RateControlParameters α)
  | setMaxBitrate (maxKbps : Int)
  | setQp (qp : Int)
  | encode (timestamp : UInt32) (frameTypes : Option (List VideoFrameType)) (accepts : EncodedImage → Bool)

/-- A new encoder. -/
def initial (config : VideoCodec) (parameters : RateControlParameters α) (own : η) : EncoderRun α η :=
  { encoder := { config := config, currentRateSettings := parameters }, own := own }

def step (A : BitrateAllocation α) (encodeHook : η → EncodedImage → η × EncodedImage)
    (s : EncoderRun α η) : Act α → Option (EncoderRun α η)
  | .initEncode config => some { s with encoder := s.encoder.initEncode A config }
  | .setRates parameters => some { s with encoder := s.encoder.setRates A parameters }
  | .setMaxBitrate maxKbps => some { s with encoder := s.encoder.setMaxBitrate A maxKbps }
  | .setQp qp => some { s with encoder := { s.encoder with qp := some qp } }
  | .encode timestamp frameTypes accepts => do
    let (info, encoder, own, images, success) ←
      s.encoder.encode A s.own ⟨encodeHook, accepts⟩ timestamp frameTypes
    let streams := s.encoder.config.simulcastStream
    let targets := FakeEncoder.targets A s.encoder.currentRateSettings.bitrate s.encoder.framerate info
    return { encoder, own, frames := s.frames ++ [⟨info, streams, targets, images, success⟩] }

end EncoderRun

/-- An allocation that gives every layer the same bitrate. -/
def sameBitrate : BitrateAllocation UInt32 where
  getBitrate bitrate _ _ := bitrate
  hasBitrate _ _ _ := true
  setBitrate _ _ _ bitrate := bitrate
  getSumKbps bitrate := bitrate / 1000
  kMaxSpatialLayers := 5
  kMaxTemporalStreams := 4

namespace FakeEncoder

variable {α η : Type} {A : BitrateAllocation α} {encoder encoder' : FakeEncoder α} {info : FrameInfo}

/-- The second loop keeps the layers, and their temporal indices unless the frame is a key frame. -/
theorem sizeLayers_temporalId {keyframe : Bool} {bitrate : α} {framerate : Int} {count i : ℕ}
    {debtBytes debtBytes' : ℕ} {layers layers' : List SpatialLayer}
    (h : sizeLayers A keyframe bitrate framerate count i debtBytes layers = some (layers', debtBytes')) :
    layers'.map (·.temporalId) = layers.map fun layer => if keyframe then 0 else layer.temporalId := by
  induction layers generalizing i debtBytes layers' debtBytes' with
  | nil =>
    cases h
    rfl
  | cons layer layers ih =>
    obtain ⟨avg, -, h⟩ := Option.bind_eq_some_iff.mp h
    obtain ⟨⟨rest, debtRest⟩, hrest, h⟩ := Option.bind_eq_some_iff.mp h
    obtain ⟨rfl, rfl⟩ := Prod.mk.inj (Option.some.inj h)
    rw [List.map_cons, List.map_cons, ih hrest]

/-- What `NextFrame` leaves behind. -/
theorem nextFrame_eq_some {frameTypes : Option (List VideoFrameType)} {keyframe : Bool}
    {streams : List SimulcastStream} {bitrate : α} {framerate : Int}
    (h : nextFrame A encoder frameTypes keyframe streams bitrate framerate = some (info, encoder')) :
    ∃ layers, nextLayers A bitrate encoder.lastFrameInfo.layers 0 streams = some layers ∧
      info.keyframe = (keyframe || (frameTypes.getD []).contains .videoFrameKey ||
        decide (encoder.lastFrameInfo.layers.length < layers.length)) ∧
      sizeLayers A info.keyframe bitrate framerate layers.length 0 encoder.debtBytes layers =
        some (info.layers, encoder'.debtBytes) ∧
      encoder' = { encoder with lastFrameInfo := info, debtBytes := encoder'.debtBytes } := by
  obtain ⟨layers, hlayers, h⟩ := Option.bind_eq_some_iff.mp h
  obtain ⟨⟨sized, debtBytes⟩, hsized, h⟩ := Option.bind_eq_some_iff.mp h
  obtain ⟨rfl, rfl⟩ := Prod.mk.inj (Option.some.inj h)
  exact ⟨layers, hlayers, rfl, hsized, rfl⟩

/-- A call of `Encode` is a frame and the loop over its layers. -/
theorem encode_eq_some {own own' : η} {out : Output η} {timestamp : UInt32}
    {frameTypes : Option (List VideoFrameType)} {images : List EncodedImage} {success : Bool}
    (h : encode A encoder own out timestamp frameTypes = some (info, encoder', own', images, success)) :
    nextFrame A { encoder with pendingKeyframe := false, counter := encoder.counter + 1 } frameTypes
        encoder.pendingKeyframe encoder.config.simulcastStream encoder.currentRateSettings.bitrate
        encoder.framerate = some (info, encoder') ∧
      encodeLayers out (fillImage encoder.counter timestamp info.keyframe encoder'.qp)
        encoder.config.simulcastStream 0 info.layers own = some (own', images, success) := by
  obtain ⟨⟨info', encoder''⟩, hframe, h⟩ := Option.bind_eq_some_iff.mp h
  obtain ⟨⟨own'', images', success'⟩, himages, h⟩ := Option.bind_eq_some_iff.mp h
  cases h
  exact ⟨hframe, himages⟩

/-- The frame of a call of `Encode`. -/
theorem encode_frame {own own' : η} {out : Output η} {timestamp : UInt32}
    {frameTypes : Option (List VideoFrameType)} {images : List EncodedImage} {success : Bool}
    (h : encode A encoder own out timestamp frameTypes = some (info, encoder', own', images, success)) :
    ∃ layers, nextLayers A encoder.currentRateSettings.bitrate encoder.lastFrameInfo.layers 0
        encoder.config.simulcastStream = some layers ∧
      info.keyframe = (encoder.pendingKeyframe || (frameTypes.getD []).contains .videoFrameKey ||
        decide (encoder.lastFrameInfo.layers.length < layers.length)) ∧
      info.layers.map (·.temporalId) =
        layers.map (fun layer => if info.keyframe then 0 else layer.temporalId) ∧
      encoder'.lastFrameInfo = info ∧ encoder'.config = encoder.config ∧
      encoder'.counter = encoder.counter + 1 ∧ encoder'.qp = encoder.qp := by
  obtain ⟨layers, hlayers, hkey, hsized, hencoder⟩ := nextFrame_eq_some (encode_eq_some h).1
  exact ⟨layers, hlayers, hkey, sizeLayers_temporalId hsized, by rw [hencoder], by rw [hencoder],
    by rw [hencoder], by rw [hencoder]⟩

end FakeEncoder

namespace EncoderRun

variable {α η : Type} {A : BitrateAllocation α} {encodeHook : η → EncodedImage → η × EncodedImage}
variable {s s' : EncoderRun α η} {a : Act α}

/-- A frame is one of the frames so far, or the last. -/
theorem frame_cases {frames : List FakeEncoder.Encoded} {frame frame' : FakeEncoder.Encoded} {k : ℕ}
    (h : (frames ++ [frame])[k]? = some frame') :
    frames[k]? = some frame' ∨ k = frames.length ∧ frame' = frame := by
  rcases Nat.lt_or_ge k frames.length with hk | hk
  · rw [List.getElem?_append_left hk] at h
    exact Or.inl h
  · obtain ⟨hlt, -⟩ := List.getElem?_eq_some_iff.mp h
    rw [List.length_append, List.length_singleton] at hlt
    obtain rfl : k = frames.length := by omega
    rw [List.getElem?_concat_length] at h
    exact Or.inr ⟨rfl, (Option.some.inj h).symm⟩

/-- A step encodes a frame, or changes the settings. -/
theorem step_cases (hs : step A encodeHook s a = some s') :
    (∃ timestamp frameTypes accepts frame, a = .encode timestamp frameTypes accepts ∧
      s.encoder.encode A s.own ⟨encodeHook, accepts⟩ timestamp frameTypes =
        some (frame.info, s'.encoder, s'.own, frame.images, frame.success) ∧
      frame.streams = s.encoder.config.simulcastStream ∧
      frame.targets = FakeEncoder.targets A s.encoder.currentRateSettings.bitrate s.encoder.framerate
        frame.info ∧
      s'.frames = s.frames ++ [frame]) ∨
    (s'.frames = s.frames ∧ s'.own = s.own ∧ s'.encoder.debtBytes = s.encoder.debtBytes ∧
      s'.encoder.counter = s.encoder.counter ∧
      (s'.encoder.lastFrameInfo = {} ∨ s'.encoder.lastFrameInfo = s.encoder.lastFrameInfo ∧
        s'.encoder.config = s.encoder.config)) := by
  cases a with
  | initEncode config =>
    cases hs
    exact Or.inr ⟨rfl, rfl, rfl, rfl, Or.inl rfl⟩
  | setRates | setMaxBitrate | setQp =>
    cases hs
    exact Or.inr ⟨rfl, rfl, rfl, rfl, Or.inr ⟨rfl, rfl⟩⟩
  | encode timestamp frameTypes accepts =>
    obtain ⟨⟨info, encoder, own, images, success⟩, hencode, hs⟩ := Option.bind_eq_some_iff.mp hs
    cases hs
    exact Or.inl ⟨timestamp, frameTypes, accepts, ⟨_, _, _, _, _⟩, rfl, hencode, rfl, rfl, rfl⟩

end EncoderRun

end WebrtcGccNs3.Video
