import WebrtcGccNs3.Video.EncodedImages

/-!
# FakeVp8Encoder and FakeVp8Decoder

The encoder writes the kind of a frame to its image, and the size of a key frame. The
decoder reads them back, and shows a frame of the last size that it read. The size is in
the key frames alone, but the other frames may still be lost on the way, as every change
of the size starts with a key frame.
-/
namespace WebrtcGccNs3.Video

def writeFakeVp8 (payload : List UInt8) (width height : ℕ) (keyFrame : Bool) : List UInt8 :=
  let payload := payload.set 0 (if keyFrame then 0 else 0x01)
  if keyFrame then
    (((payload.set 9 (UInt8.ofNat ((height &&& 0x3F00) >>> 8))).set 8 (UInt8.ofNat (height &&& 0x00FF))).set
      7 (UInt8.ofNat ((width &&& 0x3F00) >>> 8))).set 6 (UInt8.ofNat (width &&& 0x00FF))
  else payload

namespace FakeVp8Encoder

/-- The hook keeps nothing of its own. -/
def encodeHook (own : Unit) (image : EncodedImage) : Unit × EncodedImage :=
  (own, { image with
    data := writeFakeVp8 image.data image.encodedWidth image.encodedHeight
      (image.frameType = .videoFrameKey) })

end FakeVp8Encoder

structure FakeVp8Decoder where
  width : ℕ := 0
  height : ℕ := 0

namespace FakeVp8Decoder

/-- `Decode` has checked the length. -/
def parseFakeVp8 (data : List UInt8) (decoder : FakeVp8Decoder) : FakeVp8Decoder :=
  if data.getD 0 0 = 0 then
    { width := (((data.getD 7 0).toNat <<< 8) + (data.getD 6 0).toNat) &&& 0x3FFF
      height := (((data.getD 9 0).toNat <<< 8) + (data.getD 8 0).toNat) &&& 0x3FFF }
  else decoder

def kMinPayLoadHeaderLength : ℕ := 10

/-- The frame for the callback, or an error. -/
def decode (decoder : FakeVp8Decoder) (input : EncodedImage) (renderTimeMs : Int) :
    FakeVp8Decoder × Option VideoFrame :=
  if input.data.length < kMinPayLoadHeaderLength then (decoder, none)
  else
    let decoder := parseFakeVp8 input.data decoder
    (decoder, some ⟨decoder.width, decoder.height, input.timestamp, renderTimeMs⟩)

/-- The images of a stream, each with its render time. -/
def decodeAll : FakeVp8Decoder → List (EncodedImage × Int) → List (Option VideoFrame)
  | _, [] => []
  | decoder, (input, renderTimeMs) :: received =>
    (decode decoder input renderTimeMs).2 :: decodeAll (decode decoder input renderTimeMs).1 received

end FakeVp8Decoder

/-! ## An image -/

/-- Fourteen bits of a number, from the bytes that were written. -/
theorem read_written (n : ℕ) : ((UInt8.ofNat ((n &&& 0x3F00) >>> 8)).toNat <<< 8 +
    (UInt8.ofNat (n &&& 0x00FF)).toNat) &&& 0x3FFF = n % 2 ^ 14 := by
  have hhigh : (n &&& 0x3F00) >>> 8 = n / 2 ^ 8 % 2 ^ 6 := by
    rw [Nat.shiftRight_and_distrib, Nat.shiftRight_eq_div_pow]
    exact Nat.and_two_pow_sub_one_eq_mod _ 6
  have hlow : n &&& 0x00FF = n % 2 ^ 8 := Nat.and_two_pow_sub_one_eq_mod _ 8
  rw [hhigh, hlow, UInt8.toNat_ofNat', UInt8.toNat_ofNat', Nat.shiftLeft_eq]
  have hmask := Nat.and_two_pow_sub_one_eq_mod (n / 2 ^ 8 % 2 ^ 6 % 2 ^ 8 * 2 ^ 8 + n % 2 ^ 8 % 2 ^ 8) 14
  calc _ = (n / 2 ^ 8 % 2 ^ 6 % 2 ^ 8 * 2 ^ 8 + n % 2 ^ 8 % 2 ^ 8) % 2 ^ 14 := hmask
    _ = n % 2 ^ 14 := by omega

namespace EncodedImage

def isKey (image : EncodedImage) : Bool := image.frameType = .videoFrameKey

def size (image : EncodedImage) : ℕ × ℕ := (image.encodedWidth, image.encodedHeight)

/-- An image that the encoder wrote. -/
def Written (image : EncodedImage) : Prop :=
  ∃ plain : EncodedImage, 14 ≤ plain.data.length ∧ image = (FakeVp8Encoder.encodeHook () plain).2

end EncodedImage

/-- The hook leaves the counter alone. -/
theorem FakeVp8Encoder.keepsCounter : FakeEncoder.KeepsCounter FakeVp8Encoder.encodeHook := by
  intro own image
  simp only [encodeHook, writeFakeVp8]
  split <;> simp [List.drop_set]

/-- What the decoder shows of a size. -/
def FakeVp8Decoder.ofSize (size : ℕ × ℕ) : FakeVp8Decoder := ⟨size.1 % 2 ^ 14, size.2 % 2 ^ 14⟩

theorem FakeVp8Decoder.parse_write {payload : List UInt8} (hsize : 10 ≤ payload.length) (width height : ℕ)
    (keyFrame : Bool) (decoder : FakeVp8Decoder) :
    parseFakeVp8 (writeFakeVp8 payload width height keyFrame) decoder =
      if keyFrame then ofSize (width, height) else decoder := by
  have hlt : 0 < payload.length ∧ 6 < payload.length ∧ 7 < payload.length ∧ 8 < payload.length ∧
      9 < payload.length := by omega
  cases keyFrame with
  | true =>
    let data := writeFakeVp8 payload width height true
    have hkind : data.getD 0 0 = 0 := by simp [data, writeFakeVp8, hlt]
    have hwidth : data.getD 6 0 = UInt8.ofNat (width &&& 0x00FF) ∧
        data.getD 7 0 = UInt8.ofNat ((width &&& 0x3F00) >>> 8) := by simp [data, writeFakeVp8, hlt]
    have hheight : data.getD 8 0 = UInt8.ofNat (height &&& 0x00FF) ∧
        data.getD 9 0 = UInt8.ofNat ((height &&& 0x3F00) >>> 8) := by simp [data, writeFakeVp8, hlt]
    show parseFakeVp8 data decoder = ofSize (width, height)
    rw [parseFakeVp8, if_pos hkind, hwidth.1, hwidth.2, hheight.1, hheight.2, read_written, read_written,
      ofSize]
  | false =>
    have hkind : (writeFakeVp8 payload width height false).getD 0 0 = 1 := by simp [writeFakeVp8, hlt]
    rw [parseFakeVp8, hkind]
    rfl

theorem FakeVp8Decoder.decode_written {image : EncodedImage} (h : image.Written) (decoder : FakeVp8Decoder)
    (renderTimeMs : Int) :
    decoder.decode image renderTimeMs =
      let decoder := if image.isKey then ofSize image.size else decoder
      (decoder, some ⟨decoder.width, decoder.height, image.timestamp, renderTimeMs⟩) := by
  obtain ⟨plain, hsize, rfl⟩ := h
  have hlength := (FakeVp8Encoder.keepsCounter () plain).1
  have hparse : parseFakeVp8 (FakeVp8Encoder.encodeHook () plain).2.data decoder =
      if plain.isKey then ofSize plain.size else decoder := parse_write (by omega) _ _ _ _
  rw [decode, if_neg (by rw [kMinPayLoadHeaderLength]; omega), hparse]
  rfl

/-! ## A stream of images -/

/-- Every image is a key image, or has the size of the one before it, the first of them `size`. -/
def Steady : Option (ℕ × ℕ) → List EncodedImage → Prop
  | _, [] => True
  | size, image :: images => (image.isKey = true ∨ size = some image.size) ∧ Steady (some image.size) images

/-- The size of the last image. -/
def lastSize (size : Option (ℕ × ℕ)) (images : List EncodedImage) : Option (ℕ × ℕ) :=
  images.foldl (fun _ image => some image.size) size

theorem steady_append {size : Option (ℕ × ℕ)} {images images' : List EncodedImage} :
    Steady size (images ++ images') ↔ Steady size images ∧ Steady (lastSize size images) images' := by
  induction images generalizing size with
  | nil => simp [Steady, lastSize]
  | cons image images ih =>
    rw [List.cons_append, Steady, Steady, ih, and_assoc]
    rfl

/-- A decoder shows each image at its own size, as long as it gets the key images. -/
theorem decodeAll_of_steady {images : List EncodedImage} {received : List (EncodedImage × Int)}
    {size : Option (ℕ × ℕ)} {decoder : FakeVp8Decoder} (hwritten : ∀ image ∈ images, image.Written)
    (hsteady : Steady size images) (hdecoder : ∀ shown ∈ size, decoder = .ofSize shown)
    (hsub : (received.map Prod.fst).Sublist images)
    (hkeys : (received.map Prod.fst).filter EncodedImage.isKey = images.filter EncodedImage.isKey) :
    decoder.decodeAll received = received.map fun (image, renderTimeMs) =>
      some ⟨image.encodedWidth % 2 ^ 14, image.encodedHeight % 2 ^ 14, image.timestamp, renderTimeMs⟩ := by
  induction images generalizing received size decoder with
  | nil =>
    rw [List.sublist_nil, List.map_eq_nil_iff] at hsub
    rw [hsub]
    rfl
  | cons image images ih =>
    obtain ⟨himage, himages⟩ := List.forall_mem_cons.mp hwritten
    obtain ⟨hsize, hrestSteady⟩ := hsteady
    -- the decoder after this image, whether it gets it or not
    have hafter : ∀ decoder', decoder' = (if image.isKey then .ofSize image.size else decoder) →
        decoder' = FakeVp8Decoder.ofSize image.size := by
      rintro decoder' rfl
      split
      · rfl
      · next hdelta => exact hdecoder image.size (hsize.resolve_left hdelta)
    rcases received with _ | ⟨⟨input, renderTimeMs⟩, rest⟩
    · rfl
    · rw [List.map_cons] at hsub hkeys
      rcases List.cons_sublist_cons'.mp hsub with hlost | ⟨rfl, hgot⟩
      · have hdelta : ¬ image.isKey := by
          intro hkey
          have hle := (hlost.filter EncodedImage.isKey).length_le
          rw [hkeys, List.filter_cons_of_pos hkey, List.length_cons] at hle
          omega
        rw [List.filter_cons_of_neg hdelta] at hkeys
        have hshown := hafter decoder (if_neg hdelta).symm
        exact ih himages hrestSteady (fun shown h => by cases h; exact hshown) hlost hkeys
      · have hrest : (rest.map Prod.fst).filter EncodedImage.isKey = images.filter EncodedImage.isKey := by
          rw [List.filter_cons, List.filter_cons] at hkeys
          split at hkeys
          · exact List.tail_eq_of_cons_eq hkeys
          · exact hkeys
        have hdecode := FakeVp8Decoder.decode_written himage decoder renderTimeMs
        have hshown := hafter _ rfl
        rw [hshown] at hdecode
        rw [FakeVp8Decoder.decodeAll, hdecode, List.map_cons,
          ih himages hrestSteady (fun shown h => by cases h; rfl) hgot hrest]
        rfl

/-! ## A run -/

namespace FakeEncoder

variable {α : Type} {A : BitrateAllocation α}

/-- A hook that keeps nothing changes each image alone. -/
theorem hooked_vp8 {images : List EncodedImage} :
    hooked FakeVp8Encoder.encodeHook () images =
      ((), images.map fun image => (FakeVp8Encoder.encodeHook () image).2) := by
  induction images with
  | nil => rfl
  | cons image images ih => rw [hooked, ih, List.map_cons]

/-- The images of a frame: at most one of each layer, which has the size of its stream. -/
structure Layered (streams : List SimulcastStream) (info : FrameInfo) (images : List EncodedImage) :
    Prop where
  indices : (images.map (·.spatialIndex)).Sublist (List.range info.layers.length)
  written : ∀ image ∈ images, image.Written
  kind : ∀ image ∈ images, image.isKey = info.keyframe
  size : ∀ image ∈ images, ∃ stream, streams[image.spatialIndex]? = some stream ∧
    image.size = (stream.width, stream.height)

theorem layered_encode {encoder encoder' : FakeEncoder α} {info : FrameInfo} {own' : Unit}
    {accepts : EncodedImage → Bool} {timestamp : UInt32} {frameTypes : Option (List VideoFrameType)}
    {images : List EncodedImage} {success : Bool}
    (h : encode A encoder () ⟨FakeVp8Encoder.encodeHook, accepts⟩ timestamp frameTypes =
      some (info, encoder', own', images, success)) :
    Layered encoder.config.simulcastStream info images := by
  obtain ⟨plain, hplain, hhooked⟩ := encode_images h
  have himages : images = plain.map fun image => (FakeVp8Encoder.encodeHook () image).2 :=
    (Prod.mk.inj (hhooked.symm.trans hooked_vp8)).2
  have hmem : ∀ image ∈ images, ∃ i stream size, encoder.config.simulcastStream[i]? = some stream ∧
      14 ≤ size ∧ image = (FakeVp8Encoder.encodeHook ()
        (fillImage encoder.counter timestamp info.keyframe encoder.qp stream i size)).2 := by
    intro image himage
    rw [himages] at himage
    obtain ⟨before, hbefore, rfl⟩ := List.mem_map.mp himage
    obtain ⟨i, -, stream, size, hstream, hsize, rfl⟩ := mem_layerImages (hplain.subset hbefore)
    exact ⟨0 + i, stream, size, hstream, hsize, rfl⟩
  constructor
  · have hsub := (hplain.sublist.map (·.spatialIndex)).trans (layerImages_sublist fun _ _ _ => rfl)
    rw [himages, List.map_map, List.range_eq_range']
    exact hsub
  · intro image himage
    obtain ⟨i, stream, size, -, hsize, rfl⟩ := hmem image himage
    refine ⟨_, ?_, rfl⟩
    rw [fillImage, length_writeCounter, List.length_replicate]
    exact hsize
  · intro image himage
    obtain ⟨i, stream, size, -, -, rfl⟩ := hmem image himage
    show decide ((if info.keyframe then VideoFrameType.videoFrameKey else .videoFrameDelta) = _) = _
    cases info.keyframe <;> rfl
  · intro image himage
    obtain ⟨i, stream, size, hstream, -, rfl⟩ := hmem image himage
    exact ⟨stream, hstream, rfl⟩

end FakeEncoder

namespace EncoderRun

open FakeEncoder

/-- The images of one layer. -/
def imagesOf (i : ℕ) (images : List EncodedImage) : List EncodedImage :=
  images.filter fun image => image.spatialIndex = i

/-- A frame has no image of a layer, or one. -/
theorem imagesOf_layered {streams : List SimulcastStream} {info : FrameInfo} {images : List EncodedImage}
    (h : Layered streams info images) (i : ℕ) :
    (imagesOf i images = [] ∧ (images.length = info.layers.length → info.layers.length ≤ i)) ∨
      ∃ image ∈ images, imagesOf i images = [image] ∧ image.spatialIndex = i ∧ i < info.layers.length := by
  have hmem : ∀ image, image ∈ imagesOf i images ↔ image ∈ images ∧ image.spatialIndex = i := by
    intro image
    rw [imagesOf, List.mem_filter, decide_eq_true_eq]
  rcases hcase : imagesOf i images with _ | ⟨image, rest⟩
  · refine Or.inl ⟨rfl, fun hlength => ?_⟩
    -- all layers have an image, so this is not one of them
    by_contra hlayer
    have hall : images.map (·.spatialIndex) = List.range info.layers.length := by
      apply h.indices.eq_of_length
      rw [List.length_map, List.length_range, hlength]
    have hindex : i ∈ images.map (·.spatialIndex) := by
      rw [hall, List.mem_range]
      omega
    obtain ⟨image, himage, rfl⟩ := List.mem_map.mp hindex
    have hthere := (hmem image).mpr ⟨himage, rfl⟩
    rw [hcase] at hthere
    cases hthere
  · obtain ⟨himage, hindex⟩ := (hmem image).mp (by rw [hcase]; exact List.mem_cons_self)
    have hrange := h.indices.subset (List.mem_map.mpr ⟨image, himage, hindex⟩)
    refine Or.inr ⟨image, himage, ?_, hindex, List.mem_range.mp hrange⟩
    rcases rest with _ | ⟨image', rest⟩
    · rfl
    · -- two images of one layer
      have hnodup : ((imagesOf i images).map (·.spatialIndex)).Nodup :=
        (List.nodup_range.sublist h.indices).sublist (List.filter_sublist.map _)
      obtain ⟨-, hindex'⟩ := (hmem image').mp (by rw [hcase]; simp)
      rw [hcase, List.map_cons, List.map_cons, hindex, hindex'] at hnodup
      simp at hnodup

variable {α : Type} {A : BitrateAllocation α} {s s' : EncoderRun α Unit} {a : Act α}

/-- Every key frame gave an image of each of its layers. -/
def KeyFramesWhole (frames : List Encoded) : Prop :=
  ∀ frame ∈ frames, frame.info.keyframe = true → frame.images.length = frame.info.layers.length

instance (frames : List Encoded) : Decidable (KeyFramesWhole frames) :=
  inferInstanceAs (Decidable (∀ frame ∈ frames, frame.info.keyframe = true →
    frame.images.length = frame.info.layers.length))

/-- In the images of each layer the size changes at key images alone, and the last one of a layer
that the encoder still has is that of its stream. -/
structure Followed (s : EncoderRun α Unit) : Prop where
  written : ∀ image ∈ images s.frames, image.Written
  steady : ∀ i, Steady none (imagesOf i (images s.frames))
  last : ∀ i < s.encoder.lastFrameInfo.layers.length, ∀ stream,
    s.encoder.config.simulcastStream[i]? = some stream →
      lastSize none (imagesOf i (images s.frames)) = some (stream.width, stream.height)

theorem followed_step (h : KeyFramesWhole s.frames → Followed s)
    (hs : step A FakeVp8Encoder.encodeHook s a = some s') (hwhole : KeyFramesWhole s'.frames) :
    Followed s' := by
  rcases step_cases hs with ⟨timestamp, frameTypes, accepts, frame, rfl, hencode, -, -, hframes⟩ |
    ⟨hframes, -, -, -, hlast⟩
  · rw [hframes] at hwhole
    have hbefore := h fun frame' hframe' => hwhole frame' (List.mem_append_left _ hframe')
    have hkeyWhole := hwhole frame (by simp)
    have hlayered := layered_encode hencode
    obtain ⟨layers, -, hkey, hids, hlast, hconfig, -, -⟩ := encode_frame hencode
    have hsame : frame.info.layers.length = layers.length := by simpa using congrArg List.length hids
    have hdelta : frame.info.keyframe = false →
        frame.info.layers.length ≤ s.encoder.lastFrameInfo.layers.length := by
      intro hdelta
      rw [hdelta] at hkey
      by_contra hadded
      have hless : s.encoder.lastFrameInfo.layers.length < layers.length := by omega
      simp [hless] at hkey
    have himages : images s'.frames = images s.frames ++ frame.images := by
      rw [hframes, images, List.flatMap_append, List.flatMap_singleton, images]
    have hof : ∀ i, imagesOf i (images s'.frames) =
        imagesOf i (images s.frames) ++ imagesOf i frame.images := by
      intro i
      rw [himages, imagesOf, List.filter_append, imagesOf, imagesOf]
    constructor
    · rw [himages]
      intro image himage
      rcases List.mem_append.mp himage with hold | hnew
      · exact hbefore.written image hold
      · exact hlayered.written image hnew
    · intro i
      rw [hof, steady_append]
      refine ⟨hbefore.steady i, ?_⟩
      rcases imagesOf_layered hlayered i with ⟨hnone, -⟩ | ⟨image, himage, hone, rfl, hi⟩
      · rw [hnone]
        trivial
      · rw [hone]
        refine ⟨?_, trivial⟩
        obtain ⟨stream, hstream, hsize⟩ := hlayered.size image himage
        rw [hlayered.kind image himage]
        cases hkind : frame.info.keyframe with
        | true => exact Or.inl rfl
        | false =>
          right
          rw [hsize]
          exact hbefore.last _ (Nat.lt_of_lt_of_le hi (hdelta hkind)) stream hstream
    · intro i hi stream hstream
      rw [hlast] at hi
      rw [hconfig] at hstream
      rw [hof, lastSize, List.foldl_append]
      rcases imagesOf_layered hlayered i with ⟨hnone, hdropped⟩ | ⟨image, himage, hone, rfl, -⟩
      · rw [hnone]
        cases hkind : frame.info.keyframe with
        | true =>
          have hle := hdropped (hkeyWhole hkind)
          omega
        | false => exact hbefore.last i (Nat.lt_of_lt_of_le hi (hdelta hkind)) stream hstream
      · rw [hone]
        obtain ⟨stream', hstream', hsize⟩ := hlayered.size image himage
        obtain rfl := Option.some.inj (hstream'.symm.trans hstream)
        exact congrArg some hsize
  · rw [hframes] at hwhole
    have hbefore := h hwhole
    constructor
    · rw [hframes]
      exact hbefore.written
    · rw [hframes]
      exact hbefore.steady
    · intro i hi stream hstream
      rcases hlast with hlast | ⟨hlast, hconfig⟩
      · rw [hlast] at hi
        cases hi
      · rw [hlast] at hi
        rw [hconfig] at hstream
        rw [hframes]
        exact hbefore.last i hi stream hstream

/-- In every run of the encoder whose key frames are whole: a decoder of one layer that gets the key
images of the layer, and any of the others, decodes all that it gets, each to a frame of its own size
modulo `2 ^ 14` and of its own timestamp. -/
theorem decoder_shows_own_size (A : BitrateAllocation α) (config : VideoCodec)
    (parameters : RateControlParameters α) (as : List (Act α)) (s : EncoderRun α Unit)
    (hrun : Machine.run (step A FakeVp8Encoder.encodeHook) (initial config parameters ()) as = some s)
    (hwhole : KeyFramesWhole s.frames) (i : ℕ) (received : List (EncodedImage × Int))
    (hsub : (received.map Prod.fst).Sublist (imagesOf i (images s.frames)))
    (hkeys : (received.map Prod.fst).filter EncodedImage.isKey =
      (imagesOf i (images s.frames)).filter EncodedImage.isKey) :
    FakeVp8Decoder.decodeAll {} received = received.map fun (image, renderTimeMs) =>
      some ⟨image.encodedWidth % 2 ^ 14, image.encodedHeight % 2 ^ 14, image.timestamp, renderTimeMs⟩ := by
  have hfollowed : Followed s := by
    refine Machine.invariant (I := fun s => KeyFramesWhole s.frames → Followed s)
      (fun _ _ _ h hs => followed_step h hs) ?_ hrun hwhole
    intro _
    constructor
    · intro image himage
      cases himage
    · exact fun i => trivial
    · intro i hi
      cases hi
  exact decodeAll_of_steady (fun image himage => hfollowed.written image (List.mem_filter.mp himage).1)
    (hfollowed.steady i) (fun shown hshown => by cases hshown) hsub hkeys

/-- Two frames, and two more of another size. The second is lost. -/
theorem resized_stream_is_shown : ∃ s : EncoderRun UInt32 Unit, ∃ received : List (EncodedImage × Int),
    (received.map Prod.fst).Sublist (imagesOf 0 (images s.frames)) ∧
      (images s.frames).length = 4 ∧
      FakeVp8Decoder.decodeAll {} received =
        [some ⟨16, 8, 100, 0⟩, some ⟨3616, 4, 300, 0⟩, some ⟨3616, 4, 400, 0⟩] := by
  let start : EncoderRun UInt32 Unit := initial ⟨3, 10, [⟨16, 8, 1⟩]⟩ ⟨3000, 10⟩ ()
  let acts : List (Act UInt32) := [.encode 100 none fun _ => true, .encode 200 none fun _ => true,
    .initEncode ⟨3, 10, [⟨20000, 4, 1⟩]⟩, .encode 300 none fun _ => true, .encode 400 none fun _ => true]
  have hrun : ((Machine.run (step sameBitrate FakeVp8Encoder.encodeHook) start acts).any fun s =>
      let received := (imagesOf 0 (images s.frames)).eraseIdx 1
      decide (KeyFramesWhole s.frames ∧ (images s.frames).length = 4 ∧
        received.filter EncodedImage.isKey = (imagesOf 0 (images s.frames)).filter EncodedImage.isKey ∧
        (received.map fun image => (some ⟨image.encodedWidth % 2 ^ 14, image.encodedHeight % 2 ^ 14,
          image.timestamp, 0⟩ : Option VideoFrame)) =
        [some ⟨16, 8, 100, 0⟩, some ⟨3616, 4, 300, 0⟩, some ⟨3616, 4, 400, 0⟩])) = true := by
    decide +kernel
  obtain ⟨s, hs, hfacts⟩ := (Option.any_eq_true ..).mp hrun
  obtain ⟨hwhole, hlength, hkeys, hshown⟩ := of_decide_eq_true hfacts
  let received := ((imagesOf 0 (images s.frames)).eraseIdx 1).map fun image => (image, (0 : Int))
  have hfst : received.map Prod.fst = (imagesOf 0 (images s.frames)).eraseIdx 1 := by
    rw [List.map_map]
    exact List.map_id _
  have hsub : (received.map Prod.fst).Sublist (imagesOf 0 (images s.frames)) := by
    rw [hfst]
    exact List.eraseIdx_sublist ..
  refine ⟨s, received, hsub, hlength, ?_⟩
  rw [decoder_shows_own_size sameBitrate _ _ _ s hs hwhole 0 received hsub (by rw [hfst]; exact hkeys),
    ← hshown, List.map_map]
  rfl

end EncoderRun

end WebrtcGccNs3.Video
