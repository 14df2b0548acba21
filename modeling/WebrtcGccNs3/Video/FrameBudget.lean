import Mathlib.Algebra.BigOperators.Ring.Finset
import Mathlib.Data.List.Forall2
import WebrtcGccNs3.Lib.Budget
import WebrtcGccNs3.Video.EncodedImages

/-!
# The bytes of the frames

A key frame is five times its target, and the frames after it pay. Over a whole run the
sizes of the frames take what their targets allow, and the debt, which frames without keys
take down to nothing. The callback is given the images of the layers of that size, but for
those that are too small: these have paid too, and are left out.
-/
namespace WebrtcGccNs3.Video

namespace FakeEncoder

variable {α η : Type} {A : BitrateAllocation α} {bitrate : α} {framerate : Int}

/-- Targets that fit: at two frames a second or more, in an `int`. -/
def Paced (framerate : Int) : Prop := 2 ≤ framerate ∧ framerate < 2 ^ 28

instance : DecidablePred Paced := fun framerate =>
  inferInstanceAs (Decidable (2 ≤ framerate ∧ framerate < 2 ^ 28))

theorem avgFrameSize_lt (hpaced : Paced framerate) {count i temporalId avg : ℕ}
    (h : avgFrameSize A bitrate framerate count i temporalId = some avg) : avg < 2 ^ 28 := by
  obtain ⟨hlow, hhigh⟩ := hpaced
  obtain ⟨row, -, h⟩ := Option.bind_eq_some_iff.mp h
  obtain ⟨factor, -, h⟩ := Option.bind_eq_some_iff.mp h
  have hdivisor : (UInt32.ofInt (8 * framerate)).toNat = (8 * framerate).toNat := by
    rw [UInt32.ofInt, UInt32.toNat_ofNat']
    omega
  dsimp only at h
  split at h
  · cases h
  · cases h
    rw [UInt32.toNat_div, hdivisor]
    have hlt := ((A.getBitrate bitrate i temporalId + 7) * factor).toNat_lt
    have hpos : 16 ≤ (8 * framerate).toNat := by omega
    calc ((A.getBitrate bitrate i temporalId + 7) * factor).toNat / (8 * framerate).toNat
        ≤ ((A.getBitrate bitrate i temporalId + 7) * factor).toNat / 16 :=
          Nat.div_le_div_left hpos (by decide)
      _ < 2 ^ 28 := by omega

/-- The items of the budget that a frame's targets are. -/
def items (keyframe : Bool) (targets : List ℕ) : List Budget.Item := targets.map (⟨keyframe, ·⟩)

/-- A layer is an item of the budget, as long as nothing wraps. -/
theorem sizeLayer_eq {keyframe : Bool} {debtBytes avg : ℕ} (havg : avg < 2 ^ 28)
    (hdebt : debtBytes < 2 ^ 63) :
    sizeLayer keyframe debtBytes avg = ((Budget.take kKeyframeSizeFactor debtBytes ⟨keyframe, avg⟩ : Int),
      Budget.owed kKeyframeSizeFactor debtBytes ⟨keyframe, avg⟩) := by
  have hint : ∀ n : ℕ, n < 2 ^ 31 → (Int32.ofNat n).toInt = n := by
    intro n hn
    exact Int32.toInt_ofNat_of_lt hn
  cases keyframe with
  | true =>
    simp only [sizeLayer, Budget.take, Budget.owed, kKeyframeSizeFactor, if_true]
    rw [hint _ (by omega), Nat.mod_eq_of_lt (by omega)]
  | false =>
    simp only [sizeLayer, Budget.take, Budget.owed, Bool.false_eq_true, if_false]
    split
    · rw [hint _ (by omega)]
    · next hzero =>
      obtain rfl : debtBytes = 0 := by omega
      rw [hint _ (by omega)]
      simp

/-- The targets of these layers, from index `i` on. -/
def targetsFrom (A : BitrateAllocation α) (bitrate : α) (framerate : Int) (count i : ℕ)
    (layers : List SpatialLayer) : List ℕ :=
  (layers.zipIdx i).map fun (layer, i) =>
    (avgFrameSize A bitrate framerate count i layer.temporalId).getD 0

theorem sizeLayers_spec {keyframe : Bool} {count : ℕ} (hpaced : Paced framerate)
    {i debtBytes debtBytes' : ℕ} {layers layers' : List SpatialLayer}
    (h : sizeLayers A keyframe bitrate framerate count i debtBytes layers = some (layers', debtBytes')) :
    (∀ target ∈ targetsFrom A bitrate framerate count i layers', target < 2 ^ 28) ∧
      (debtBytes + 2 ^ 30 * layers.length < 2 ^ 63 →
        layers'.map (·.size) = (Budget.takes kKeyframeSizeFactor debtBytes
          (items keyframe (targetsFrom A bitrate framerate count i layers'))).map Nat.cast ∧
        debtBytes' = Budget.debtAfter kKeyframeSizeFactor debtBytes
          (items keyframe (targetsFrom A bitrate framerate count i layers'))) := by
  induction layers generalizing i debtBytes layers' debtBytes' with
  | nil =>
    cases h
    exact ⟨by simp [targetsFrom], fun _ => ⟨rfl, rfl⟩⟩
  | cons layer layers ih =>
    obtain ⟨avg, havg, h⟩ := Option.bind_eq_some_iff.mp h
    obtain ⟨⟨rest, debtRest⟩, hrest, h⟩ := Option.bind_eq_some_iff.mp h
    obtain ⟨rfl, rfl⟩ := Prod.mk.inj (Option.some.inj h)
    obtain ⟨htargets, hbudget⟩ := ih hrest
    have hlt := avgFrameSize_lt hpaced havg
    have hcons : ∀ size, targetsFrom A bitrate framerate count i
        (⟨size, if keyframe then 0 else layer.temporalId⟩ :: rest) =
        avg :: targetsFrom A bitrate framerate count (i + 1) rest := by
      intro size
      rw [targetsFrom, List.zipIdx_cons, List.map_cons]
      simp only [havg, Option.getD_some]
      rfl
    refine ⟨?_, fun hfits => ?_⟩
    · rw [hcons]
      exact List.forall_mem_cons.mpr ⟨hlt, htargets⟩
    · rw [List.length_cons] at hfits
      have hlayer : sizeLayer keyframe debtBytes avg =
          ((Budget.take kKeyframeSizeFactor debtBytes ⟨keyframe, avg⟩ : Int),
            Budget.owed kKeyframeSizeFactor debtBytes ⟨keyframe, avg⟩) := sizeLayer_eq hlt (by omega)
      have howed : Budget.owed kKeyframeSizeFactor debtBytes ⟨keyframe, avg⟩ ≤ debtBytes + 2 ^ 30 := by
        simp only [Budget.owed, kKeyframeSizeFactor]
        split <;> omega
      rw [hlayer] at hbudget ⊢
      obtain ⟨hsizes, hdebt⟩ := hbudget (by dsimp only; omega)
      have hitems : items keyframe (avg :: targetsFrom A bitrate framerate count (i + 1) rest) =
        ⟨keyframe, avg⟩ :: items keyframe (targetsFrom A bitrate framerate count (i + 1) rest) := rfl
      rw [hcons, hitems, Budget.takes, Budget.debtAfter_cons, List.map_cons, List.map_cons, hsizes, hdebt]
      exact ⟨rfl, rfl⟩

/-- There is no factor for more than four layers. -/
theorem length_le_four {keyframe : Bool} {debtBytes debtBytes' : ℕ} {layers layers' : List SpatialLayer}
    (h : sizeLayers A keyframe bitrate framerate layers.length 0 debtBytes layers =
      some (layers', debtBytes')) : layers.length ≤ 4 := by
  cases layers with
  | nil => exact Nat.zero_le _
  | cons layer layers =>
    obtain ⟨avg, havg, -⟩ := Option.bind_eq_some_iff.mp h
    obtain ⟨row, hrow, -⟩ := Option.bind_eq_some_iff.mp havg
    obtain ⟨hlt, -⟩ := List.getElem?_eq_some_iff.mp hrow
    have hfour : kTemporalLayerRateFactor.length = 4 := rfl
    omega

/-- A frame is a part of the budget. -/
structure Fits (debtBytes : ℕ) (info : FrameInfo) (targets : List ℕ) (debtBytes' : ℕ) : Prop where
  few : targets.length ≤ 4
  small : ∀ target ∈ targets, target < 2 ^ 28
  sizes : debtBytes < 2 ^ 62 → info.layers.map (·.size) =
    (Budget.takes kKeyframeSizeFactor debtBytes (items info.keyframe targets)).map Nat.cast
  debt : debtBytes < 2 ^ 62 →
    debtBytes' = Budget.debtAfter kKeyframeSizeFactor debtBytes (items info.keyframe targets)

theorem fits_of_nextFrame {encoder encoder' : FakeEncoder α} {frameTypes : Option (List VideoFrameType)}
    {keyframe : Bool} {streams : List SimulcastStream} {info : FrameInfo} (hpaced : Paced framerate)
    (h : nextFrame A encoder frameTypes keyframe streams bitrate framerate = some (info, encoder')) :
    Fits encoder.debtBytes info (targets A bitrate framerate info) encoder'.debtBytes := by
  obtain ⟨layers, -, -, hsized, -⟩ := nextFrame_eq_some h
  have hfour := length_le_four hsized
  obtain ⟨hsmall, hbudget⟩ := sizeLayers_spec hpaced hsized
  have hlength : info.layers.length = layers.length := by
    simpa using congrArg List.length (sizeLayers_temporalId hsized)
  have htargets : targetsFrom A bitrate framerate layers.length 0 info.layers =
      targets A bitrate framerate info := by
    rw [targetsFrom, targets, hlength]
  rw [htargets] at hsmall hbudget
  refine ⟨?_, hsmall, fun hdebt => (hbudget (by omega)).1, fun hdebt => (hbudget (by omega)).2⟩
  rw [targets, List.length_map, List.length_zipIdx]
  omega

/-- A layer of a key frame has five times its target, and any other at least half of it. -/
def Sized (keyframe : Bool) (target : ℕ) (size : Int) : Prop :=
  if keyframe then size = kKeyframeSizeFactor * target
  else ((target - target / 2 : ℕ) : Int) ≤ size ∧ size ≤ target

theorem Fits.layers {debtBytes debtBytes' : ℕ} {info : FrameInfo} {targets : List ℕ}
    (h : Fits debtBytes info targets debtBytes') (hdebt : debtBytes < 2 ^ 62) :
    List.Forall₂ (Sized info.keyframe) targets (info.layers.map (·.size)) := by
  rw [h.sizes hdebt, List.forall₂_map_right_iff]
  have htakes : List.Forall₂ (fun item taken => ∃ debt, taken = Budget.take kKeyframeSizeFactor debt item)
      (items info.keyframe targets)
      (Budget.takes kKeyframeSizeFactor debtBytes (items info.keyframe targets)) := Budget.forall₂_takes
  rw [items, List.forall₂_map_left_iff] at htakes
  apply htakes.imp
  rintro target taken ⟨debt, rfl⟩
  rw [Sized]
  split
  · next hkey =>
    rw [Budget.take, if_pos hkey]
    exact Nat.cast_mul ..
  · next hdelta =>
    have hpays : info.keyframe = false := Bool.eq_false_of_not_eq_true hdelta
    have hrange := Budget.take_paying kKeyframeSizeFactor debt target
    rw [hpays]
    exact ⟨Nat.cast_le.mpr hrange.1, Nat.cast_le.mpr hrange.2⟩

/-! ### Images -/

theorem length_fillImage (counter timestamp : UInt32) (keyframe : Bool) (qp : Option Int)
    (stream : SimulcastStream) (i size : ℕ) :
    (fillImage counter timestamp keyframe qp stream i size).data.length = size := by
  rw [fillImage, length_writeCounter, List.length_replicate]

theorem lengths_hooked {encodeHook : η → EncodedImage → η × EncodedImage} (hkeeps : KeepsLength encodeHook)
    {own : η} {images : List EncodedImage} (hsize : ∀ image ∈ images, 14 ≤ image.data.length) :
    (hooked encodeHook own images).2.map (fun image => (image.data.length : Int)) =
      images.map fun image => (image.data.length : Int) := by
  induction images generalizing own with
  | nil => rfl
  | cons image images ih =>
    obtain ⟨hfirst, hrest⟩ := List.forall_mem_cons.mp hsize
    rw [hooked, List.map_cons, List.map_cons, ih hrest, hkeeps own image hfirst]

/-- The images have the sizes of the layers that are large enough. -/
theorem lengths_layerImages {counter timestamp : UInt32} {keyframe : Bool} {qp : Option Int}
    {streams : List SimulcastStream} {i : ℕ} {layers : List SpatialLayer}
    (h : i + layers.length ≤ streams.length) :
    (layerImages (fillImage counter timestamp keyframe qp) streams i layers).map
        (fun image => (image.data.length : Int)) =
      (layers.map (·.size)).filter (kMinPayLoadLength ≤ ·) := by
  induction layers generalizing i with
  | nil => rfl
  | cons layer layers ih =>
    rw [List.length_cons] at h
    have hrest := ih (i := i + 1) (by omega)
    rw [layerImages, List.map_cons]
    split
    · next hsmall => rw [hrest, List.filter_cons_of_neg (by simpa using hsmall)]
    · next hlarge =>
      have hsize : ((layer.size.toNat : ℕ) : Int) = layer.size := by
        unfold kMinPayLoadLength at hlarge
        omega
      rw [List.getElem?_eq_getElem (show i < streams.length by omega)]
      dsimp only
      rw [List.map_cons, hrest, length_fillImage, hsize, List.filter_cons_of_pos (by simpa using hlarge)]

theorem length_nextLayers {last layers : List SpatialLayer} {i : ℕ} {streams : List SimulcastStream}
    (h : nextLayers A bitrate last i streams = some layers) : layers.length ≤ streams.length := by
  induction streams generalizing i layers with
  | nil =>
    cases h
    exact le_refl _
  | cons stream streams ih =>
    obtain ⟨rest, hrest, h⟩ := Option.bind_eq_some_iff.mp h
    have hle := ih hrest
    rw [List.length_cons]
    split at h
    · split at h
      · split at h
        · cases h
        · cases h
          exact Nat.succ_le_succ hle
      · cases h
        exact Nat.succ_le_succ hle
    · cases h
      omega

/-- The callback is given images of these sizes, of the layers that are large enough, up to the first
that it does not take. -/
def Delivers (frame : Encoded) : Prop :=
  frame.images.map (fun image => (image.data.length : Int)) <+:
      (frame.info.layers.map (·.size)).filter (kMinPayLoadLength ≤ ·) ∧
    (frame.success = true → frame.images.map (fun image => (image.data.length : Int)) =
      (frame.info.layers.map (·.size)).filter (kMinPayLoadLength ≤ ·))

theorem delivers_of_encode {encodeHook : η → EncodedImage → η × EncodedImage}
    (hkeeps : KeepsLength encodeHook) {encoder encoder' : FakeEncoder α} {own own' : η}
    {accepts : EncodedImage → Bool} {timestamp : UInt32} {frameTypes : Option (List VideoFrameType)}
    {frame : Encoded}
    (h : encode A encoder own ⟨encodeHook, accepts⟩ timestamp frameTypes =
      some (frame.info, encoder', own', frame.images, frame.success)) : Delivers frame := by
  obtain ⟨hframe, hencode⟩ := encode_eq_some h
  obtain ⟨layers, hlayers, -, hsized, -⟩ := nextFrame_eq_some hframe
  have hcount : 0 + frame.info.layers.length ≤ encoder.config.simulcastStream.length := by
    have hlength : frame.info.layers.length = layers.length := by
      simpa using congrArg List.length (sizeLayers_temporalId hsized)
    have hle := length_nextLayers hlayers
    omega
  obtain ⟨plain, hplain, hhooked, hall⟩ := encodeLayers_spec hencode
  have hsize : ∀ image ∈ plain, 14 ≤ image.data.length := by
    intro image himage
    obtain ⟨j, -, stream, size, -, hsize, rfl⟩ := mem_layerImages (hplain.subset himage)
    rwa [length_fillImage]
  have himages : frame.images.map (fun image => (image.data.length : Int)) =
      plain.map fun image => (image.data.length : Int) := by
    rw [← lengths_hooked hkeeps hsize, hhooked]
  rw [Delivers, himages, ← lengths_layerImages hcount]
  exact ⟨hplain.map _, fun hsuccess => congrArg _ (hall hsuccess)⟩

end FakeEncoder

namespace EncoderRun

open FakeEncoder

variable {α η : Type} {A : BitrateAllocation α} {encodeHook : η → EncodedImage → η × EncodedImage}
variable {s s' : EncoderRun α η} {a : Act α}

/-- The encoder encodes at a rate that keeps its sizes in an `int`. -/
def EncodesPaced (s : EncoderRun α η) : Act α → Prop
  | .encode .. => Paced s.encoder.framerate
  | _ => True

instance (s : EncoderRun α η) (a : Act α) : Decidable (EncodesPaced s a) :=
  match a with
  | .encode .. => inferInstanceAs (Decidable (Paced s.encoder.framerate))
  | .initEncode _ | .setRates _ | .setMaxBitrate _ | .setQp _ => inferInstanceAs (Decidable True)

/-- The budget that these frames are. -/
def budget (frames : List Encoded) : List Budget.Item :=
  frames.flatMap fun frame => items frame.info.keyframe frame.targets

/-- The sizes of all layers of these frames. -/
def sizes (frames : List Encoded) : List Int := frames.flatMap fun frame => frame.info.layers.map (·.size)

/-- The frames and the debt are those of the budget, for fewer than `2 ^ 30` frames. -/
structure Budgeted (s : EncoderRun α η) : Prop where
  few : (budget s.frames).length ≤ 4 * s.frames.length
  small : ∀ item ∈ budget s.frames, item.target ≤ 2 ^ 28
  sizes : s.frames.length ≤ 2 ^ 30 → sizes s.frames =
    (Budget.takes kKeyframeSizeFactor 0 (budget s.frames)).map Nat.cast
  debt : s.frames.length ≤ 2 ^ 30 →
    s.encoder.debtBytes = Budget.debtAfter kKeyframeSizeFactor 0 (budget s.frames)
  layers : s.frames.length ≤ 2 ^ 30 → ∀ frame ∈ s.frames,
    List.Forall₂ (Sized frame.info.keyframe) frame.targets (frame.info.layers.map (·.size))

theorem budgeted_step (h : Budgeted s) (ha : EncodesPaced s a) (hs : step A encodeHook s a = some s') :
    Budgeted s' := by
  rcases step_cases hs with ⟨timestamp, frameTypes, accepts, frame, rfl, hencode, -, htargets, hframes⟩ |
    ⟨hframes, -, hdebt, -, -⟩
  · have hpaced : Paced s.encoder.framerate := ha
    have hfits := fits_of_nextFrame hpaced (encode_eq_some hencode).1
    rw [← htargets] at hfits
    have hbudget : budget s'.frames = budget s.frames ++ items frame.info.keyframe frame.targets := by
      rw [hframes, budget, List.flatMap_append, List.flatMap_singleton, budget]
    have hlength : s'.frames.length = s.frames.length + 1 := by simp [hframes]
    have hsmallDebt : s.frames.length + 1 ≤ 2 ^ 30 → s.encoder.debtBytes < 2 ^ 62 := by
      intro hfew
      have hle : Budget.debtAfter kKeyframeSizeFactor 0 (budget s.frames) ≤
          0 + (kKeyframeSizeFactor - 1) * 2 ^ 28 * (budget s.frames).length :=
        Budget.debtAfter_le h.small
      have hmany := h.few
      rw [h.debt (by omega)]
      simp only [kKeyframeSizeFactor] at hle ⊢
      omega
    constructor
    · have hmany := h.few
      have hfour := hfits.few
      rw [hbudget, hlength, List.length_append, items, List.length_map]
      omega
    · rw [hbudget]
      intro item hitem
      rcases List.mem_append.mp hitem with hitem | hitem
      · exact h.small item hitem
      · obtain ⟨target, htarget, rfl⟩ := List.mem_map.mp hitem
        exact (hfits.small target htarget).le
    · intro hfew
      rw [hlength] at hfew
      rw [hbudget, Budget.takes_append, List.map_append, ← h.sizes (by omega), ← h.debt (by omega),
        ← hfits.sizes (hsmallDebt hfew), EncoderRun.sizes, hframes, List.flatMap_append,
        List.flatMap_singleton, EncoderRun.sizes]
    · intro hfew
      rw [hlength] at hfew
      rw [hbudget, Budget.debtAfter_append, ← h.debt (by omega), ← hfits.debt (hsmallDebt hfew)]
    · intro hfew frame' hframe'
      rw [hlength] at hfew
      rw [hframes] at hframe'
      rcases List.mem_append.mp hframe' with hframe' | hframe'
      · exact h.layers (by omega) frame' hframe'
      · rw [List.mem_singleton.mp hframe']
        exact hfits.layers (hsmallDebt hfew)
  · constructor
    · rw [hframes]
      exact h.few
    · rw [hframes]
      exact h.small
    · rw [hframes]
      exact h.sizes
    · rw [hframes, hdebt]
      exact h.debt
    · rw [hframes]
      exact h.layers

theorem budgeted_of_run {config : VideoCodec} {parameters : RateControlParameters α} {own : η}
    {as : List (Act α)} (hpaced : Machine.AllSteps (step A encodeHook) EncodesPaced
      (initial config parameters own) as)
    (hrun : Machine.run (step A encodeHook) (initial config parameters own) as = some s) : Budgeted s := by
  refine Machine.invariant_of_allSteps (fun _ _ _ h ha hs => budgeted_step h ha hs) ?_ hpaced hrun
  constructor
  · exact Nat.le_refl _
  · simp [initial, budget]
  · exact fun _ => rfl
  · exact fun _ => rfl
  · simp [initial]

/-- The sum of the targets of these frames. -/
def targetBytes (frames : List Encoded) : ℕ := (frames.map fun frame => frame.targets.sum).sum

theorem sum_budget (f : ℕ → ℕ) (frames : List Encoded) :
    ((budget frames).map fun item => f item.target).sum =
      (frames.map fun frame => (frame.targets.map f).sum).sum := by
  induction frames with
  | nil => rfl
  | cons frame frames ih =>
    have hitems : (items frame.info.keyframe frame.targets).map (fun item => f item.target) =
        frame.targets.map f := by
      rw [items, List.map_map]
      rfl
    rw [budget, List.flatMap_cons, List.map_append, List.sum_append, hitems, List.map_cons, List.sum_cons,
      ← ih, budget]

/-- The bytes of all images that the callback was given. -/
def deliveredBytes (frames : List Encoded) : ℕ :=
  (frames.map fun frame => (frame.images.map (·.data.length)).sum).sum

/-- The sizes of all layers that are too small for an image. -/
def droppedBytes (frames : List Encoded) : Int :=
  ((sizes frames).filter (· < kMinPayLoadLength)).sum

theorem sum_filter_add (sizes : List Int) :
    (sizes.filter (kMinPayLoadLength ≤ ·)).sum + (sizes.filter (· < kMinPayLoadLength)).sum = sizes.sum := by
  induction sizes with
  | nil => rfl
  | cons size sizes ih =>
    rcases lt_or_ge size kMinPayLoadLength with hsmall | hlarge
    · rw [List.filter_cons_of_neg (by simpa using hsmall), List.filter_cons_of_pos (by simpa using hsmall),
        List.sum_cons, List.sum_cons]
      omega
    · rw [List.filter_cons_of_pos (by simpa using hlarge), List.filter_cons_of_neg (by simpa using hlarge),
        List.sum_cons, List.sum_cons]
      omega

/-- Where the callback takes every image, the images and the layers left out are all layers. -/
theorem delivered_add_dropped {frames : List Encoded}
    (h : ∀ frame ∈ frames, Delivers frame ∧ frame.success = true) :
    deliveredBytes frames + droppedBytes frames = (sizes frames).sum := by
  induction frames with
  | nil => rfl
  | cons frame frames ih =>
    obtain ⟨⟨hdelivers, hsuccess⟩, hrest⟩ := List.forall_mem_cons.mp h
    have hframe := sum_filter_add (frame.info.layers.map (·.size))
    have himages : (((frame.images.map (·.data.length)).sum : ℕ) : Int) =
        (frame.images.map fun image => (image.data.length : Int)).sum := by
      rw [Nat.cast_list_sum, List.map_map]
      rfl
    rw [← hdelivers.2 hsuccess, ← himages] at hframe
    have hlater := ih hrest
    rw [deliveredBytes, droppedBytes, sizes] at hlater ⊢
    rw [List.map_cons, List.sum_cons, List.flatMap_cons, List.filter_append, List.sum_append,
      List.sum_append, Nat.cast_add]
    omega

theorem delivers_step (hkeeps : KeepsLength encodeHook) (h : ∀ frame ∈ s.frames, Delivers frame)
    (hs : step A encodeHook s a = some s') : ∀ frame ∈ s'.frames, Delivers frame := by
  rcases step_cases hs with ⟨timestamp, frameTypes, accepts, frame, -, hencode, -, -, hframes⟩ |
    ⟨hframes, -, -, -, -⟩
  · rw [hframes, List.forall_mem_append, List.forall_mem_singleton]
    exact ⟨h, delivers_of_encode hkeeps hencode⟩
  · rw [hframes]
    exact h

theorem frames_kept (hs : step A encodeHook s a = some s') : s.frames <+: s'.frames := by
  rcases step_cases hs with ⟨_, _, _, frame, -, -, -, -, hframes⟩ | ⟨hframes, -, -, -, -⟩
  · exact ⟨[frame], hframes.symm⟩
  · exact ⟨[], by rw [hframes, List.append_nil]⟩

/-- In every run at two frames a second or more, up to `2 ^ 30` frames: the sizes of all layers are
together the sum of their targets and the debt; a layer of a key frame has five times its target, and
any other from half of it up; and a stretch without key frames takes half of its targets off the debt.
A hook that leaves as many bytes as there are gives the callback images of these sizes, but for those
below 14 bytes: if it takes them all, they and what is left out are the targets and the debt. -/
theorem sizes_meet_their_targets (A : BitrateAllocation α)
    (encodeHook : η → EncodedImage → η × EncodedImage) (hkeeps : KeepsLength encodeHook)
    (config : VideoCodec) (parameters : RateControlParameters α) (own : η) (as bs : List (Act α))
    (s t : EncoderRun α η)
    (hpaced : Machine.AllSteps (step A encodeHook) EncodesPaced (initial config parameters own) (as ++ bs))
    (hs : Machine.run (step A encodeHook) (initial config parameters own) as = some s)
    (ht : Machine.run (step A encodeHook) s bs = some t) (hfew : t.frames.length ≤ 2 ^ 30) :
    (sizes t.frames).sum = targetBytes t.frames + t.encoder.debtBytes ∧
      (∀ frame ∈ t.frames,
        List.Forall₂ (Sized frame.info.keyframe) frame.targets (frame.info.layers.map (·.size))) ∧
      ((∀ frame ∈ t.frames.drop s.frames.length, frame.info.keyframe = false) →
        t.encoder.debtBytes = s.encoder.debtBytes - ((t.frames.drop s.frames.length).map fun frame =>
          (frame.targets.map (· / 2)).sum).sum) ∧
      (∀ frame ∈ t.frames, Delivers frame) ∧
      ((∀ frame ∈ t.frames, frame.success = true) → deliveredBytes t.frames + droppedBytes t.frames =
        targetBytes t.frames + t.encoder.debtBytes) := by
  have hrun := Machine.run_append_eq_some.mpr ⟨s, hs, ht⟩
  have hbudget : Budgeted t := budgeted_of_run hpaced hrun
  have hbudget' : Budgeted s := budgeted_of_run (hpaced.of_prefix (List.prefix_append _ _)) hs
  have hprefix : s.frames <+: t.frames := by
    have hinv : ∀ t', Machine.run (step A encodeHook) s bs = some t' → s.frames <+: t'.frames :=
      fun t' ht' => Machine.invariant (I := fun u => s.frames <+: u.frames)
        (fun _ _ _ h hs => h.trans (frames_kept hs)) (List.prefix_refl _) ht'
    exact hinv t ht
  obtain ⟨new, hnew⟩ := hprefix
  have hdrop : t.frames.drop s.frames.length = new := by
    rw [← hnew, List.drop_left]
  have hlength : s.frames.length ≤ t.frames.length := by
    rw [← hnew, List.length_append]
    omega
  have htotal : (sizes t.frames).sum = targetBytes t.frames + t.encoder.debtBytes := by
    have hsum : (Budget.takes kKeyframeSizeFactor 0 (budget t.frames)).sum + 0 =
        ((budget t.frames).map (·.target)).sum +
          Budget.debtAfter kKeyframeSizeFactor 0 (budget t.frames) := Budget.sum_takes (by decide)
    have htargets : ((budget t.frames).map (·.target)).sum = targetBytes t.frames := by
      have hid := sum_budget id t.frames
      simpa [targetBytes] using hid
    rw [htargets, ← hbudget.debt hfew] at hsum
    rw [hbudget.sizes hfew, ← Nat.cast_list_sum]
    exact_mod_cast hsum
  have hdelivers : ∀ frame ∈ t.frames, Delivers frame :=
    Machine.invariant (I := fun u => ∀ frame ∈ u.frames, Delivers frame)
      (fun _ _ _ h hs => delivers_step hkeeps h hs) (fun frame hmem => absurd hmem List.not_mem_nil) hrun
  refine ⟨htotal, hbudget.layers hfew, fun hdelta => ?_, hdelivers, fun hsuccess => ?_⟩
  · rw [hdrop] at hdelta ⊢
    have hsplit : budget t.frames = budget s.frames ++ budget new := by
      rw [← hnew, budget, List.flatMap_append, budget, budget]
    have hpaying : ∀ item ∈ budget new, item.borrows = false := by
      intro item hitem
      obtain ⟨frame, hframe, hitem⟩ := List.mem_flatMap.mp hitem
      obtain ⟨target, -, rfl⟩ := List.mem_map.mp hitem
      exact hdelta frame hframe
    rw [hbudget.debt hfew, hsplit, Budget.debtAfter_append, ← hbudget'.debt (by omega),
      Budget.debtAfter_of_paying hpaying]
    rw [sum_budget (· / 2)]
  · rw [delivered_add_dropped fun frame hmem => ⟨hdelivers frame hmem, hsuccess frame hmem⟩, htotal]

/-- A key frame of five times 30 bytes, and eight frames that pay 15 bytes each: all of it is
delivered. -/
theorem debt_is_paid_in_eight_frames : ∃ t : EncoderRun UInt32 Unit,
    t.frames.length = 9 ∧ t.encoder.debtBytes = 0 ∧ droppedBytes t.frames = 0 ∧
      deliveredBytes t.frames = (targetBytes t.frames : Int) := by
  let start : EncoderRun UInt32 Unit := initial ⟨0, 10, [⟨16, 8, 1⟩]⟩ ⟨2400, 10⟩ ()
  let encode : Act UInt32 := .encode 0 none fun _ => true
  have hrun : (Machine.run (step sameBitrate encodeHook) start ([encode] ++ List.replicate 8 encode)).map
      (fun t => (t.frames.length, t.encoder.debtBytes, droppedBytes t.frames,
        t.frames.all (·.success))) = some (9, 0, 0, true) := by decide +kernel
  have hpaced : Machine.AllSteps (step sameBitrate encodeHook) EncodesPaced start
      ([encode] ++ List.replicate 8 encode) := by decide +kernel
  obtain ⟨t, hrun, ht⟩ := Option.map_eq_some_iff.mp hrun
  obtain ⟨hlength, ht⟩ := Prod.mk.inj ht
  obtain ⟨hdebt, ht⟩ := Prod.mk.inj ht
  obtain ⟨hdropped, hall⟩ := Prod.mk.inj ht
  obtain ⟨s, hs, ht⟩ := Machine.run_append_eq_some.mp hrun
  have hkeeps : KeepsLength encodeHook := KeepsCounter.keepsLength fun _ _ => ⟨rfl, rfl⟩
  obtain ⟨-, -, -, -, hsum⟩ :=
    sizes_meet_their_targets sameBitrate _ hkeeps _ _ _ _ _ s t hpaced hs ht (by omega)
  have hdelivered := hsum fun frame hmem => List.all_eq_true.mp hall frame hmem
  rw [hdropped, hdebt] at hdelivered
  exact ⟨t, hlength, hdebt, hdropped, by simpa using hdelivered⟩

end EncoderRun

end WebrtcGccNs3.Video
