import Mathlib.Data.Nat.ModEq
import WebrtcGccNs3.Video.FakeEncoder

/-!
# The temporal layers

As long as every stream has a bitrate, the layers of a frame are the streams, and the
temporal indices of each stream go round from its last key frame on. A new configuration
starts with a key frame.
-/
namespace WebrtcGccNs3.Video

namespace FakeEncoder

variable {α : Type} {A : BitrateAllocation α} {bitrate : α}

/-- With a bitrate for every stream, there is a layer for each, and it takes the temporal index
after the last one. -/
theorem nextLayers_active {last layers : List SpatialLayer} {i : ℕ} {streams : List SimulcastStream}
    (hactive : ∀ j < streams.length, A.getBitrate bitrate (i + j) 0 > 0)
    (h : nextLayers A bitrate last i streams = some layers) :
    layers.length = streams.length ∧ ∀ j layer, layers[j]? = some layer →
      ∃ stream, streams[j]? = some stream ∧ (last.length ≤ i + j ∨
        ∃ old, last[i + j]? = some old ∧
          layer.temporalId = (old.temporalId + 1) % stream.numberOfTemporalLayers) := by
  induction streams generalizing i layers with
  | nil =>
    cases h
    simp
  | cons stream streams ih =>
    obtain ⟨rest, hrest, h⟩ := Option.bind_eq_some_iff.mp h
    have hhere : A.getBitrate bitrate i 0 > 0 := hactive 0 (by simp)
    have hlater : ∀ j < streams.length, A.getBitrate bitrate (i + 1 + j) 0 > 0 := by
      intro j hj
      have hthere := hactive (j + 1) (by simpa using hj)
      rwa [Nat.add_right_comm]
    obtain ⟨hlength, hids⟩ := ih hlater hrest
    have hfirst : ∃ layer, layers = layer :: rest ∧ (last.length ≤ i ∨ ∃ old, last[i]? = some old ∧
        layer.temporalId = (old.temporalId + 1) % stream.numberOfTemporalLayers) := by
      rw [if_pos hhere] at h
      split at h
      · next old hold =>
        split at h
        · cases h
        · cases h
          exact ⟨_, rfl, Or.inr ⟨old, hold, rfl⟩⟩
      · next hnone =>
        cases h
        exact ⟨_, rfl, Or.inl (List.getElem?_eq_none_iff.mp hnone)⟩
    obtain ⟨layer, rfl, hid⟩ := hfirst
    refine ⟨by rw [List.length_cons, List.length_cons, hlength], fun j layer' hj => ?_⟩
    cases j with
    | zero =>
      cases hj
      exact ⟨stream, rfl, hid⟩
    | succ j =>
      obtain ⟨stream', hstream, hrest'⟩ := hids j layer' hj
      rw [Nat.add_right_comm, Nat.add_assoc] at hrest'
      exact ⟨stream', hstream, hrest'⟩

end FakeEncoder

namespace EncoderRun

open FakeEncoder

variable {α η : Type} {A : BitrateAllocation α} {encodeHook : η → EncodedImage → η × EncodedImage}
variable {s s' : EncoderRun α η} {a : Act α}

/-- Every stream has a bitrate when a frame is encoded. -/
def AllActive (A : BitrateAllocation α) (s : EncoderRun α η) : Act α → Prop
  | .encode .. => ∀ i < s.encoder.config.simulcastStream.length,
    A.getBitrate s.encoder.currentRateSettings.bitrate i 0 > 0
  | _ => True

instance (A : BitrateAllocation α) (s : EncoderRun α η) (a : Act α) : Decidable (AllActive A s a) :=
  match a with
  | .encode .. => inferInstanceAs (Decidable (∀ i < s.encoder.config.simulcastStream.length,
      A.getBitrate s.encoder.currentRateSettings.bitrate i 0 > 0))
  | .initEncode _ | .setRates _ | .setMaxBitrate _ | .setQp _ => inferInstanceAs (Decidable True)

/-- How many frames there are since the last key frame. -/
def sinceKey (frames : List Encoded) : ℕ :=
  (frames.reverse.takeWhile fun frame => !frame.info.keyframe).length

theorem sinceKey_concat (frames : List Encoded) (frame : Encoded) :
    sinceKey (frames ++ [frame]) = if frame.info.keyframe then 0 else sinceKey frames + 1 := by
  rw [sinceKey, List.reverse_append, List.reverse_singleton, List.singleton_append, List.takeWhile_cons]
  cases frame.info.keyframe <;> simp [sinceKey]

/-- The temporal indices of these layers are `n` steps from those of a key frame. -/
def StepsFromKey (streams : List SimulcastStream) (n : ℕ) (layers : List SpatialLayer) : Prop :=
  ∀ (i : ℕ) (layer : SpatialLayer), layers[i]? = some layer →
    ∃ stream : SimulcastStream, streams[i]? = some stream ∧
      layer.temporalId = n % stream.numberOfTemporalLayers

theorem stepsFromKey_encode {timestamp : UInt32} {frameTypes : Option (List VideoFrameType)}
    {out : Output η} {frame : Encoded}
    (h : StepsFromKey s.encoder.config.simulcastStream (sinceKey s.frames) s.encoder.lastFrameInfo.layers)
    (hactive : ∀ i < s.encoder.config.simulcastStream.length,
      A.getBitrate s.encoder.currentRateSettings.bitrate i 0 > 0)
    (hencode : s.encoder.encode A s.own out timestamp frameTypes =
      some (frame.info, s'.encoder, s'.own, frame.images, frame.success)) :
    s'.encoder.lastFrameInfo = frame.info ∧ s'.encoder.config = s.encoder.config ∧
      frame.info.layers.length = s.encoder.config.simulcastStream.length ∧
      StepsFromKey s.encoder.config.simulcastStream (sinceKey (s.frames ++ [frame])) frame.info.layers := by
  obtain ⟨layers, hlayers, hkey, hids, hlast, hconfig, -, -⟩ := encode_frame hencode
  obtain ⟨hlength, hnext⟩ := nextLayers_active (i := 0) (by simpa using hactive) hlayers
  have hsame : frame.info.layers.length = layers.length := by simpa using congrArg List.length hids
  refine ⟨hlast, hconfig, hsame.trans hlength, ?_⟩
  intro i layer hlayer
  obtain ⟨hlt, -⟩ := List.getElem?_eq_some_iff.mp hlayer
  have hold : ∃ before, layers[i]? = some before ∧
      layer.temporalId = if frame.info.keyframe then 0 else before.temporalId := by
    have hget := congrArg (fun l => l[i]?) hids
    rw [List.getElem?_map, List.getElem?_map, hlayer] at hget
    obtain ⟨before, hbefore, hid⟩ := Option.map_eq_some_iff.mp hget.symm
    exact ⟨before, hbefore, hid.symm⟩
  obtain ⟨before, hbefore, hid⟩ := hold
  obtain ⟨stream, hstream, hcases⟩ := hnext i before hbefore
  refine ⟨stream, hstream, ?_⟩
  rw [sinceKey_concat, hid]
  split
  · rw [Nat.zero_mod]
  · next hdelta =>
    -- no layer was added, so the last frame has this layer
    have hfits : layers.length ≤ s.encoder.lastFrameInfo.layers.length := by
      by_contra hadded
      apply hdelta
      rw [hkey]
      simp only [Bool.or_eq_true, decide_eq_true_eq]
      omega
    rcases hcases with hadded | ⟨old, hbefore', hstep⟩
    · omega
    · rw [Nat.zero_add] at hbefore'
      obtain ⟨stream', hstream', hsteps⟩ := h i old hbefore'
      obtain rfl : stream' = stream := Option.some.inj (hstream'.symm.trans hstream)
      rw [hstep, hsteps, Nat.mod_add_mod]

/-- Every frame so far is as many steps from a key frame as there are frames since, and so is the
one that the encoder keeps. -/
structure Cycles (s : EncoderRun α η) : Prop where
  last : StepsFromKey s.encoder.config.simulcastStream (sinceKey s.frames) s.encoder.lastFrameInfo.layers
  frames : ∀ k frame, s.frames[k]? = some frame →
    frame.info.layers.length = frame.streams.length ∧
      StepsFromKey frame.streams (sinceKey (s.frames.take (k + 1))) frame.info.layers

theorem cycles_step (h : Cycles s) (ha : AllActive A s a) (hs : step A encodeHook s a = some s') :
    Cycles s' := by
  rcases step_cases hs with ⟨timestamp, frameTypes, accepts, frame, rfl, hencode, hstreams, -, hframes⟩ |
    ⟨hframes, -, -, -, hlast⟩
  · obtain ⟨hlast, hconfig, hlength, hsteps⟩ := stepsFromKey_encode h.last ha hencode
    rw [← hstreams] at hlength hsteps
    constructor
    · rw [hlast, hconfig, hframes, ← hstreams]
      exact hsteps
    · intro k frame' hframe'
      rw [hframes] at hframe' ⊢
      rcases frame_cases hframe' with hold | ⟨rfl, rfl⟩
      · obtain ⟨hlt, -⟩ := List.getElem?_eq_some_iff.mp hold
        rw [List.take_append_of_le_length (by omega)]
        exact h.frames k frame' hold
      · rw [List.take_of_length_le (by simp)]
        exact ⟨hlength, hsteps⟩
  · constructor
    · rcases hlast with hlast | ⟨hlast, hconfig⟩
      · rw [hlast]
        intro i layer hlayer
        cases hlayer
      · rw [hlast, hconfig, hframes]
        exact h.last
    · rw [hframes]
      exact h.frames

/-- In every run with a bitrate for every stream: a frame has a layer for each stream of its
configuration, and the temporal index of each is the number of frames since the last key frame,
modulo the number of temporal layers of the stream. -/
theorem temporal_indices_go_round (A : BitrateAllocation α)
    (encodeHook : η → EncodedImage → η × EncodedImage) (config : VideoCodec)
    (parameters : RateControlParameters α) (own : η) (as : List (Act α)) (s : EncoderRun α η)
    (hactive : Machine.AllSteps (step A encodeHook) (AllActive A) (initial config parameters own) as)
    (hrun : Machine.run (step A encodeHook) (initial config parameters own) as = some s) (k : ℕ)
    (frame : Encoded) (hframe : s.frames[k]? = some frame) :
    frame.info.layers.length = frame.streams.length ∧
      ∀ (i : ℕ) (layer : SpatialLayer), frame.info.layers[i]? = some layer →
        ∃ stream : SimulcastStream, frame.streams[i]? = some stream ∧
          layer.temporalId = sinceKey (s.frames.take (k + 1)) % stream.numberOfTemporalLayers := by
  have hcycles : Cycles s := by
    refine Machine.invariant_of_allSteps (fun _ _ _ h ha hs => cycles_step h ha hs) ?_ hactive hrun
    constructor
    · intro i layer hlayer
      cases hlayer
    · intro k frame hframe
      cases hframe
  exact hcycles.frames k frame hframe

/-- Two streams, of three and two temporal layers: the fourth frame after the key frame. -/
theorem fifth_frame_of_two_streams : ∃ s : EncoderRun UInt32 Unit, ∃ frame,
    s.frames[4]? = some frame ∧ frame.info.layers.map (·.temporalId) = [1, 0] ∧
      frame.info.layers.length = frame.streams.length := by
  let start : EncoderRun UInt32 Unit := initial ⟨0, 10, [⟨16, 8, 3⟩, ⟨8, 4, 2⟩]⟩ ⟨800, 10⟩ ()
  let encode : Act UInt32 := .encode 0 none fun _ => true
  have hrun : ((Machine.run (step sameBitrate fun own image => (own, image)) start
      (List.replicate 5 encode)).bind fun s => s.frames[4]?.map fun frame =>
        frame.info.layers.map (·.temporalId)) = some [1, 0] := by decide +kernel
  have hactive : Machine.AllSteps (step sameBitrate fun own image => (own, image)) (AllActive sameBitrate)
      start (List.replicate 5 encode) := by decide +kernel
  obtain ⟨s, hs, hframe⟩ := Option.bind_eq_some_iff.mp hrun
  obtain ⟨frame, hframe, hids⟩ := Option.map_eq_some_iff.mp hframe
  exact ⟨s, frame, hframe, hids,
    (temporal_indices_go_round sameBitrate _ _ _ _ _ s hactive hs 4 frame hframe).1⟩

end EncoderRun

end WebrtcGccNs3.Video
