import Mathlib.Data.Nat.Digits.Defs
import WebrtcGccNs3.Video.FakeEncoder

/-!
# The images of the encoder

An encoded frame gives an image of each layer to the callback, except for those that are
too small, and for those behind one that the callback does not take. The hook of the
encoder changes the images in the order in which they are given. As each frame has a
counter, and the hook leaves it alone, the images of different frames differ.
-/
namespace WebrtcGccNs3.Video

/-- A decoded frame. -/
structure VideoFrame where
  width : ℕ
  height : ℕ
  timestamp : UInt32
  timestampMs : Int
  deriving DecidableEq

namespace FakeEncoder

variable {α η : Type} {A : BitrateAllocation α} {encodeHook : η → EncodedImage → η × EncodedImage}

/-- The images of these layers, the first with index `i`, before the hook. -/
def layerImages (image : SimulcastStream → ℕ → ℕ → EncodedImage) (streams : List SimulcastStream) :
    ℕ → List SpatialLayer → List EncodedImage
  | _, [] => []
  | i, layer :: layers =>
    if layer.size < kMinPayLoadLength then layerImages image streams (i + 1) layers
    else
      match streams[i]? with
      | some stream => image stream i layer.size.toNat :: layerImages image streams (i + 1) layers
      | none => []

/-- The hook on one image after the other. -/
def hooked (encodeHook : η → EncodedImage → η × EncodedImage) :
    η → List EncodedImage → η × List EncodedImage
  | own, [] => (own, [])
  | own, image :: images =>
    let rest := hooked encodeHook (encodeHook own image).1 images
    (rest.1, (encodeHook own image).2 :: rest.2)

theorem length_hooked {own : η} {images : List EncodedImage} :
    (hooked encodeHook own images).2.length = images.length := by
  induction images generalizing own with
  | nil => rfl
  | cons image images ih => simp only [hooked, List.length_cons, ih]

theorem mem_hooked {own : η} {images : List EncodedImage} {encoded : EncodedImage}
    (h : encoded ∈ (hooked encodeHook own images).2) :
    ∃ own', ∃ image ∈ images, encoded = (encodeHook own' image).2 := by
  induction images generalizing own with
  | nil => cases h
  | cons image images ih =>
    rcases List.mem_cons.mp h with rfl | h
    · exact ⟨own, image, List.mem_cons_self, rfl⟩
    · obtain ⟨own', image', himage', hencoded⟩ := ih h
      exact ⟨own', image', List.mem_cons_of_mem _ himage', hencoded⟩

/-- The callback is given the images of the layers, up to the first that it does not take. -/
theorem encodeLayers_spec {out : Output η} {image : SimulcastStream → ℕ → ℕ → EncodedImage}
    {streams : List SimulcastStream} {i : ℕ} {layers : List SpatialLayer} {own own' : η}
    {images : List EncodedImage} {success : Bool}
    (h : encodeLayers out image streams i layers own = some (own', images, success)) :
    ∃ plain, plain <+: layerImages image streams i layers ∧
      hooked out.encodeHook own plain = (own', images) ∧
      (success = true → plain = layerImages image streams i layers) := by
  induction layers generalizing i own images with
  | nil =>
    cases h
    exact ⟨[], List.prefix_rfl, rfl, fun _ => rfl⟩
  | cons layer layers ih =>
    rw [encodeLayers] at h
    rw [layerImages]
    split at h
    · next hsmall =>
      rw [if_pos hsmall]
      exact ih h
    · next hlarge =>
      rw [if_neg hlarge]
      obtain ⟨stream, hstream, h⟩ := Option.bind_eq_some_iff.mp h
      rw [hstream]
      dsimp only at h ⊢
      split at h
      · obtain ⟨⟨own'', images', success'⟩, hrest, h⟩ := Option.bind_eq_some_iff.mp h
        cases h
        obtain ⟨plain, hprefix, hhooked, hall⟩ := ih hrest
        refine ⟨image stream i layer.size.toNat :: plain, List.cons_prefix_cons.mpr ⟨rfl, hprefix⟩, ?_, ?_⟩
        · rw [hooked, hhooked]
        · exact fun hsuccess => congrArg _ (hall hsuccess)
      · cases h
        exact ⟨[image stream i layer.size.toNat], List.cons_prefix_cons.mpr ⟨rfl, List.nil_prefix⟩, rfl,
          fun hsuccess => by cases hsuccess⟩

/-- An image of a layer is of a layer that is large enough. -/
theorem mem_layerImages {image : SimulcastStream → ℕ → ℕ → EncodedImage} {streams : List SimulcastStream}
    {i : ℕ} {layers : List SpatialLayer} {plain : EncodedImage}
    (h : plain ∈ layerImages image streams i layers) :
    ∃ j < layers.length, ∃ stream size, streams[i + j]? = some stream ∧ 14 ≤ size ∧
      plain = image stream (i + j) size := by
  induction layers generalizing i with
  | nil => cases h
  | cons layer layers ih =>
    have hlater : plain ∈ layerImages image streams (i + 1) layers →
        ∃ j < (layer :: layers).length, ∃ stream size, streams[i + j]? = some stream ∧ 14 ≤ size ∧
          plain = image stream (i + j) size := by
      intro h
      obtain ⟨j, hj, stream, size, hrest⟩ := ih h
      rw [Nat.add_right_comm, Nat.add_assoc] at hrest
      exact ⟨j + 1, Nat.succ_lt_succ hj, stream, size, hrest⟩
    rw [layerImages] at h
    split at h
    · exact hlater h
    · next hlarge =>
      split at h
      · next stream hstream =>
        rcases List.mem_cons.mp h with rfl | h
        · have hsize : 14 ≤ layer.size.toNat := by
            unfold kMinPayLoadLength at hlarge
            omega
          exact ⟨0, Nat.succ_pos _, stream, _, hstream, hsize, rfl⟩
        · exact hlater h
      · cases h

/-- There is at most one image of each layer, in their order. -/
theorem layerImages_sublist {image : SimulcastStream → ℕ → ℕ → EncodedImage}
    {streams : List SimulcastStream} {i : ℕ} {layers : List SpatialLayer}
    (himage : ∀ stream i size, (image stream i size).spatialIndex = i) :
    ((layerImages image streams i layers).map (·.spatialIndex)).Sublist (List.range' i layers.length) := by
  induction layers generalizing i with
  | nil => exact List.Sublist.refl _
  | cons layer layers ih =>
    rw [layerImages, List.length_cons, List.range'_succ]
    split
    · exact ih.cons _
    · split
      · rw [List.map_cons, himage]
        exact ih.cons_cons _
      · exact List.nil_sublist _

/-- The images of a call of `Encode`. -/
theorem encode_images {encoder encoder' : FakeEncoder α} {info : FrameInfo} {own own' : η} {out : Output η}
    {timestamp : UInt32} {frameTypes : Option (List VideoFrameType)} {images : List EncodedImage}
    {success : Bool}
    (h : encode A encoder own out timestamp frameTypes = some (info, encoder', own', images, success)) :
    ∃ plain, plain <+: layerImages (fillImage encoder.counter timestamp info.keyframe encoder.qp)
        encoder.config.simulcastStream 0 info.layers ∧
      hooked out.encodeHook own plain = (own', images) := by
  obtain ⟨-, -, -, -, -, -, -, hqp⟩ := encode_frame h
  obtain ⟨plain, hplain, hhooked, -⟩ := encodeLayers_spec (encode_eq_some h).2
  rw [hqp] at hplain
  exact ⟨plain, hplain, hhooked⟩

/-! ## The counter -/

/-- The last four bytes as a number, the lowest first. -/
def readCounter (data : List UInt8) : ℕ :=
  Nat.ofDigits 256 ((data.drop (data.length - 4)).map (·.toNat))

theorem length_writeCounter {data : List UInt8} {payload : ℕ} {counter : UInt32} :
    (writeCounter data payload counter).length = data.length := by
  simp only [writeCounter, List.length_set]

theorem writeCounter_append (data : List UInt8) (a b c d : UInt8) (counter : UInt32) :
    writeCounter (data ++ [a, b, c, d]) data.length counter =
      data ++ [(counter &&& 0xFF).toUInt8, ((counter &&& 0xFF00) >>> 8).toUInt8,
        ((counter &&& 0xFF0000) >>> 16).toUInt8, ((counter &&& 0xFF000000) >>> 24).toUInt8] := by
  simp [writeCounter]

theorem masked_byte (n k : ℕ) : ((n &&& 255 * 2 ^ k) >>> k) % 256 = n / 2 ^ k % 256 := by
  have hmask : (255 * 2 ^ k) >>> k = 255 := by
    rw [Nat.shiftRight_eq_div_pow]
    exact Nat.mul_div_cancel _ (Nat.two_pow_pos k)
  have hbyte : n >>> k &&& 255 = n >>> k % 256 := Nat.and_two_pow_sub_one_eq_mod _ 8
  rw [Nat.shiftRight_and_distrib, hmask, hbyte, Nat.mod_mod, Nat.shiftRight_eq_div_pow]

/-- The four bytes of a number. -/
theorem ofDigits_counter (counter : UInt32) :
    Nat.ofDigits 256 ([(counter &&& 0xFF).toUInt8, ((counter &&& 0xFF00) >>> 8).toUInt8,
      ((counter &&& 0xFF0000) >>> 16).toUInt8, ((counter &&& 0xFF000000) >>> 24).toUInt8].map
      (·.toNat)) = counter.toNat := by
  have h0 : (counter &&& 0xFF).toUInt8.toNat = counter.toNat / 1 % 256 := masked_byte counter.toNat 0
  have h1 : ((counter &&& 0xFF00) >>> 8).toUInt8.toNat = counter.toNat / 2 ^ 8 % 256 :=
    masked_byte counter.toNat 8
  have h2 : ((counter &&& 0xFF0000) >>> 16).toUInt8.toNat = counter.toNat / 2 ^ 16 % 256 :=
    masked_byte counter.toNat 16
  have h3 : ((counter &&& 0xFF000000) >>> 24).toUInt8.toNat = counter.toNat / 2 ^ 24 % 256 :=
    masked_byte counter.toNat 24
  have hlt := counter.toNat_lt
  simp only [List.map_cons, List.map_nil, Nat.ofDigits_cons, Nat.ofDigits_nil, h0, h1, h2, h3]
  omega

theorem readCounter_writeCounter {size : ℕ} (hsize : 4 ≤ size) (counter : UInt32) :
    readCounter (writeCounter (List.replicate size 9) (size - 4) counter) = counter.toNat := by
  obtain ⟨rest, rfl⟩ := Nat.exists_eq_add_of_le' hsize
  have hsplit : (List.replicate (rest + 4) 9 : List UInt8) = List.replicate rest 9 ++ [9, 9, 9, 9] := by
    rw [List.replicate_add]
    rfl
  have hwrite := writeCounter_append (List.replicate rest 9) 9 9 9 9 counter
  rw [List.length_replicate] at hwrite
  rw [Nat.add_sub_cancel, hsplit, hwrite, readCounter, List.length_append, List.length_replicate]
  show Nat.ofDigits 256 (((List.replicate rest 9 ++ _).drop (rest + 4 - 4)).map _) = _
  rw [Nat.add_sub_cancel, List.drop_left' List.length_replicate]
  exact ofDigits_counter counter

/-- A hook that leaves all behind the first ten bytes alone. -/
def KeepsCounter (encodeHook : η → EncodedImage → η × EncodedImage) : Prop :=
  ∀ own image, (encodeHook own image).2.data.length = image.data.length ∧
    (encodeHook own image).2.data.drop 10 = image.data.drop 10

/-- A hook that leaves as many bytes as there are. -/
def KeepsLength (encodeHook : η → EncodedImage → η × EncodedImage) : Prop :=
  ∀ own image, 14 ≤ image.data.length → (encodeHook own image).2.data.length = image.data.length

theorem KeepsCounter.keepsLength (h : KeepsCounter encodeHook) : KeepsLength encodeHook :=
  fun own image _ => (h own image).1

theorem readCounter_hook (h : KeepsCounter encodeHook) {own : η} {image : EncodedImage}
    (hsize : 14 ≤ image.data.length) :
    readCounter (encodeHook own image).2.data = readCounter image.data := by
  obtain ⟨hlength, hdrop⟩ := h own image
  have hsplit : image.data.length - 4 = 10 + (image.data.length - 14) := by omega
  rw [readCounter, readCounter, hlength, hsplit, ← List.drop_drop, ← List.drop_drop, hdrop]

end FakeEncoder

namespace EncoderRun

open FakeEncoder

variable {α η : Type} {A : BitrateAllocation α} {encodeHook : η → EncodedImage → η × EncodedImage}
variable {s s' : EncoderRun α η} {a : Act α}

/-- All images of these frames. -/
def images (frames : List Encoded) : List EncodedImage := frames.flatMap (·.images)

/-- The counter counts the frames, and every image carries the number of its frame. -/
structure Counted (s : EncoderRun α η) : Prop where
  counter : s.encoder.counter = UInt32.ofNat s.frames.length
  images : ∀ k frame, s.frames[k]? = some frame → ∀ image ∈ frame.images,
    readCounter image.data = k % 2 ^ 32

theorem counted_step (hkeeps : KeepsCounter encodeHook) (h : Counted s)
    (hs : step A encodeHook s a = some s') : Counted s' := by
  rcases step_cases hs with ⟨timestamp, frameTypes, accepts, frame, rfl, hencode, -, -, hframes⟩ |
    ⟨hframes, -, -, hcounter, -⟩
  · obtain ⟨-, -, -, -, -, -, hcounter, -⟩ := encode_frame hencode
    obtain ⟨plain, hplain, hhooked⟩ := encode_images hencode
    constructor
    · rw [hcounter, h.counter, hframes, List.length_append, List.length_singleton]
      exact (UInt32.ofNat_add _ _).symm
    · intro k frame' hframe' image himage
      rw [hframes] at hframe'
      rcases frame_cases hframe' with hold | ⟨rfl, rfl⟩
      · exact h.images k frame' hold image himage
      · have hmem : image ∈ (hooked encodeHook s.own plain).2 := by
          rw [hhooked]
          exact himage
        obtain ⟨own, before, hbefore, rfl⟩ := mem_hooked hmem
        obtain ⟨i, -, stream, size, -, hsize, rfl⟩ := mem_layerImages (hplain.subset hbefore)
        have hlength : (fillImage s.encoder.counter timestamp frame'.info.keyframe s.encoder.qp stream
            (0 + i) size).data.length = size := by
          rw [fillImage, length_writeCounter, List.length_replicate]
        rw [readCounter_hook hkeeps (by rw [hlength]; exact hsize), fillImage,
          readCounter_writeCounter (by omega), h.counter, UInt32.toNat_ofNat']
  · constructor
    · rw [hcounter, hframes]
      exact h.counter
    · rw [hframes]
      exact h.images

/-- In every run with a hook that leaves the counter alone: an image carries the number of its frame
modulo `2 ^ 32`, so images of different frames differ, of any `2 ^ 32` frames in a row. -/
theorem images_of_frames_differ (A : BitrateAllocation α)
    (encodeHook : η → EncodedImage → η × EncodedImage) (hkeeps : KeepsCounter encodeHook)
    (config : VideoCodec) (parameters : RateControlParameters α) (own : η) (as : List (Act α))
    (s : EncoderRun α η)
    (hrun : Machine.run (step A encodeHook) (initial config parameters own) as = some s)
    (k l : ℕ) (frame frame' : Encoded) (hk : s.frames[k]? = some frame) (hl : s.frames[l]? = some frame')
    (hlt : k < l) (hnear : l < k + 2 ^ 32) (image image' : EncodedImage) (himage : image ∈ frame.images)
    (himage' : image' ∈ frame'.images) :
    readCounter image.data = k % 2 ^ 32 ∧ image.data ≠ image'.data := by
  have hcounted : Counted s := by
    refine Machine.invariant (fun _ _ _ h hs => counted_step hkeeps h hs) ?_ hrun
    constructor
    · rfl
    · intro k frame hframe
      cases hframe
  have hnumber := hcounted.images k frame hk image himage
  have hnumber' := hcounted.images l frame' hl image' himage'
  refine ⟨hnumber, fun hsame => ?_⟩
  rw [hsame] at hnumber
  omega

/-- Two frames of fifteen bytes. -/
theorem second_and_third_image_differ : ∃ s : EncoderRun UInt32 Unit, ∃ frame frame' image image',
    s.frames[1]? = some frame ∧ s.frames[2]? = some frame' ∧ image ∈ frame.images ∧
      image' ∈ frame'.images ∧ (image.data.length, image'.data.length) = (15, 15) ∧
      image.data ≠ image'.data := by
  let start : EncoderRun UInt32 Unit := initial ⟨0, 10, [⟨16, 8, 1⟩]⟩ ⟨2400, 10⟩ ()
  let encode : Act UInt32 := .encode 0 none fun _ => true
  have hrun : ((Machine.run (step sameBitrate encodeHook) start (List.replicate 3 encode)).bind fun s =>
      s.frames[1]?.bind fun frame => s.frames[2]?.bind fun frame' => frame.images.head?.bind fun image =>
        frame'.images.head?.map fun image' => (image.data.length, image'.data.length)) =
      some (15, 15) := by decide +kernel
  obtain ⟨s, hs, hrun⟩ := Option.bind_eq_some_iff.mp hrun
  obtain ⟨frame, hframe, hrun⟩ := Option.bind_eq_some_iff.mp hrun
  obtain ⟨frame', hframe', hrun⟩ := Option.bind_eq_some_iff.mp hrun
  obtain ⟨image, himage, hrun⟩ := Option.bind_eq_some_iff.mp hrun
  obtain ⟨image', himage', hlengths⟩ := Option.map_eq_some_iff.mp hrun
  have hmem := List.mem_of_head? himage
  have hmem' := List.mem_of_head? himage'
  have hkeeps : KeepsCounter encodeHook := fun _ _ => ⟨rfl, rfl⟩
  exact ⟨s, frame, frame', image, image', hframe, hframe', hmem, hmem', hlengths,
    (images_of_frames_differ sameBitrate encodeHook hkeeps _ _ _ _ s hs 1 2 frame frame' hframe hframe'
      (by decide) (by decide) image image' hmem hmem').2⟩

end EncoderRun

end WebrtcGccNs3.Video
