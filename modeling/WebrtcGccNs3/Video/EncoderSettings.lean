import Mathlib.Algebra.BigOperators.Group.List.Basic
import Mathlib.Tactic.Ring
import WebrtcGccNs3.Wire.Trace

/-!
# Encoder settings

`CreateVideoStreams` shares the encoder's bitrate among its streams, from the smallest one
on: each is given as its target what it asks for, or what is left. The last one may use what
no target needs. The bitrates are `int`s, and only the last addition to one can overflow. The
`RTC_DCHECK`s are compiled out.
-/
namespace WebrtcGccNs3.Video

structure VideoStream where
  width : ℕ := 0
  height : ℕ := 0
  maxFramerate : ℤ := -1
  minBitrateBps : ℤ := -1
  targetBitrateBps : ℤ := -1
  maxBitrateBps : ℤ := -1
  scaleResolutionDownBy : ℚ := -1
  maxQp : ℤ := -1
  numTemporalLayers : Option ℕ := none
  bitratePriority : Option ℚ := none
  active : Bool := true

/-- What `CreateVideoStreams` reads of it. -/
structure VideoEncoderConfig where
  numberOfStreams : ℕ
  maxBitrateBps : ℤ
  bitratePriority : ℚ
  simulcastLayers : List VideoStream

namespace DefaultVideoStreamFactory

def kMaxNumberOfStreams : ℕ := 3

def kMaxBitratePerStream : List ℤ := [150000, 450000, 1500000]

def kDefaultMinBitratePerStream : List ℤ := [30000, 200000, 700000]

end DefaultVideoStreamFactory

open DefaultVideoStreamFactory

section Create

variable (width height : ℕ) (config : VideoEncoderConfig)

/-- A configured value instead of the default one. -/
def orDefault (configured default : ℤ) : ℤ := if configured > 0 then configured else default

/-- The quotient is a `double` that is cut to an `int`. -/
def scaledDown (size : ℕ) (scaleResolutionDownBy : ℚ) : ℕ :=
  ⌊Wire.toDouble (size / scaleResolutionDownBy)⌋₊

/-- The loop's body for stream `i`. `none` behind the end of the default bitrates. -/
def createVideoStream (i : ℕ) (bitrateLeftBps : ℤ) : Option VideoStream := do
  let kMax ← kMaxBitratePerStream[i]?
  let kMin ← kDefaultMinBitratePerStream[i]?
  let settings : VideoStream :=
    { width := (i + 1) * width / config.numberOfStreams
      height := (i + 1) * height / config.numberOfStreams
      maxFramerate := 30
      minBitrateBps := kMin
      maxQp := 56 }
  match config.simulcastLayers[i]? with
  | some stream =>
    let maxBitrateBps := min bitrateLeftBps (orDefault stream.maxBitrateBps kMax)
    return { settings with
      width := if stream.scaleResolutionDownBy ≥ 1 then scaledDown width stream.scaleResolutionDownBy
        else settings.width
      height := if stream.scaleResolutionDownBy ≥ 1 then scaledDown height stream.scaleResolutionDownBy
        else settings.height
      maxFramerate := orDefault stream.maxFramerate settings.maxFramerate
      minBitrateBps := orDefault stream.minBitrateBps settings.minBitrateBps
      targetBitrateBps := min maxBitrateBps (orDefault stream.targetBitrateBps kMax)
      maxBitrateBps := maxBitrateBps
      numTemporalLayers := stream.numTemporalLayers
      active := stream.active }
  | none =>
    return { settings with
      targetBitrateBps := min bitrateLeftBps kMax
      maxBitrateBps := min bitrateLeftBps kMax }

/-- The loop from stream `i` on, for `count` streams, and what is left of the bitrate behind it. -/
def createStreams : ℕ → ℕ → ℤ → Option (List VideoStream × ℤ)
  | 0, _, bitrateLeftBps => some ([], bitrateLeftBps)
  | count + 1, i, bitrateLeftBps => do
    let stream ← createVideoStream width height config i bitrateLeftBps
    let rest ← createStreams count (i + 1) (bitrateLeftBps - stream.targetBitrateBps)
    return (stream :: rest.1, rest.2)

/-- The bitrate to share, which is that of the default streams if none is configured. -/
def encoderBitrate : ℤ :=
  if config.maxBitrateBps > 0 then config.maxBitrateBps
  else (kMaxBitratePerStream.take config.numberOfStreams).sum

/-- `none` if there is no stream, or more than there are default bitrates for, or if the last
stream's maximum overflows. -/
def createVideoStreams : Option (List VideoStream) := do
  let created ← createStreams width height config config.numberOfStreams 0 (encoderBitrate config)
  let last ← created.1[config.numberOfStreams - 1]?
  guard (last.maxBitrateBps + created.2 < 2 ^ 31)
  let settings := created.1.modify (config.numberOfStreams - 1) fun stream =>
    { stream with maxBitrateBps := stream.maxBitrateBps + created.2 }
  return settings.modify 0 fun stream => { stream with bitratePriority := some config.bitratePriority }

end Create

section Shares

variable (config : VideoEncoderConfig)

/-- The most that stream `i` may use. -/
def limit (i : ℕ) : ℤ :=
  match config.simulcastLayers[i]? with
  | some stream => orDefault stream.maxBitrateBps (kMaxBitratePerStream.getD i 0)
  | none => kMaxBitratePerStream.getD i 0

/-- The target that stream `i` asks for. -/
def wanted (i : ℕ) : ℤ :=
  match config.simulcastLayers[i]? with
  | some stream => orDefault stream.targetBitrateBps (kMaxBitratePerStream.getD i 0)
  | none => kMaxBitratePerStream.getD i 0

/-- What the streams below `i` leave of the bitrate. -/
def leftFor : ℕ → ℤ
  | 0 => encoderBitrate config
  | i + 1 => max 0 (leftFor i - min (limit config i) (wanted config i))

/-- The most that the last stream may use, with what no target needs, is an `int`. -/
def Fits : Prop :=
  min (leftFor config (config.numberOfStreams - 1)) (limit config (config.numberOfStreams - 1)) +
    leftFor config config.numberOfStreams < 2 ^ 31

instance : Decidable (Fits config) := Int.decLt _ _

/-- No resolution is configured for stream `i`. -/
def Unscaled (i : ℕ) : Prop := ∀ stream ∈ config.simulcastLayers[i]?, stream.scaleResolutionDownBy < 1

variable {config} {width height i count : ℕ} {left left' : ℤ} {streams : List VideoStream}

theorem orDefault_pos {configured default : ℤ} (h : 0 < default) :
    0 < orDefault configured default := by
  unfold orDefault
  split <;> omega

theorem kMaxBitratePerStream_pos (hi : i < kMaxNumberOfStreams) :
    0 < kMaxBitratePerStream.getD i 0 := by
  have hcases : i = 0 ∨ i = 1 ∨ i = 2 := by
    unfold kMaxNumberOfStreams at hi
    omega
  rcases hcases with rfl | rfl | rfl <;> decide

theorem demand_pos (config : VideoEncoderConfig) (hi : i < kMaxNumberOfStreams) :
    0 < min (limit config i) (wanted config i) := by
  have hpos := kMaxBitratePerStream_pos hi
  unfold limit wanted
  split
  · exact lt_min (orDefault_pos hpos) (orDefault_pos hpos)
  · exact lt_min hpos hpos

theorem encoderBitrate_pos (hn : 0 < config.numberOfStreams) : 0 < encoderBitrate config := by
  unfold encoderBitrate
  split
  · assumption
  · obtain ⟨n, hn⟩ := Nat.exists_eq_succ_of_ne_zero hn.ne'
    rw [hn]
    rcases n with _ | _ | n <;> simp [kMaxBitratePerStream]

theorem leftFor_nonneg (hn : 0 < config.numberOfStreams) (i : ℕ) : 0 ≤ leftFor config i := by
  cases i with
  | zero => exact (encoderBitrate_pos hn).le
  | succ i => exact le_max_left _ _

/-- What stream `i` is given of what is left for it. -/
structure Given (width height : ℕ) (config : VideoEncoderConfig) (i : ℕ) (left : ℤ)
    (stream : VideoStream) : Prop where
  target : stream.targetBitrateBps = min left (min (limit config i) (wanted config i))
  max : stream.maxBitrateBps = min left (limit config i)
  size : Unscaled config i → stream.width = (i + 1) * width / config.numberOfStreams ∧
    stream.height = (i + 1) * height / config.numberOfStreams

theorem createVideoStream_spec (width height : ℕ) (config : VideoEncoderConfig)
    (hi : i < kMaxNumberOfStreams) (left : ℤ) :
    ∃ stream, createVideoStream width height config i left = some stream ∧
      Given width height config i left stream := by
  have hmax : kMaxBitratePerStream[i]? = some (kMaxBitratePerStream.getD i 0) := by
    rw [List.getD_eq_getElem?_getD,
      List.getElem?_eq_getElem (show i < kMaxBitratePerStream.length from hi)]
    rfl
  have hmin : ∃ kMin, kDefaultMinBitratePerStream[i]? = some kMin :=
    ⟨_, List.getElem?_eq_getElem (show i < kDefaultMinBitratePerStream.length from hi)⟩
  obtain ⟨kMin, hmin⟩ := hmin
  rw [createVideoStream, hmax, hmin]
  simp only [Option.bind_eq_bind, Option.bind_some]
  split
  · rename_i stream hstream
    refine ⟨_, rfl, ?_, ?_, fun hunscaled => ?_⟩
    · simp only [limit, wanted, hstream, min_assoc]
    · simp only [limit, hstream]
    · have hscale : ¬ stream.scaleResolutionDownBy ≥ 1 := not_le.mpr (hunscaled stream hstream)
      simp only [if_neg hscale, and_self]
  · rename_i hnone
    refine ⟨_, rfl, ?_, ?_, fun _ => ⟨rfl, rfl⟩⟩
    · simp only [limit, wanted, hnone, min_self]
    · simp only [limit, hnone]

theorem createStreams_spec (width height : ℕ) (hn : 0 < config.numberOfStreams)
    (hi : i + count ≤ kMaxNumberOfStreams) :
    ∃ streams, createStreams width height config count i (leftFor config i) =
        some (streams, leftFor config (i + count)) ∧ streams.length = count ∧
      ∀ k stream, streams[k]? = some stream →
        Given width height config (i + k) (leftFor config (i + k)) stream := by
  induction count generalizing i with
  | zero => exact ⟨[], rfl, rfl, fun k stream h => by simp at h⟩
  | succ count ih =>
    obtain ⟨stream, hstream, hgiven⟩ := createVideoStream_spec width height config
      (show i < kMaxNumberOfStreams by omega) (leftFor config i)
    have hleft : leftFor config i - stream.targetBitrateBps = leftFor config (i + 1) := by
      have hnonneg := leftFor_nonneg hn i
      have hpos := demand_pos config (show i < kMaxNumberOfStreams by omega)
      rw [hgiven.target, leftFor]
      omega
    obtain ⟨streams, hstreams, hlength, hall⟩ := ih (i := i + 1) (by omega)
    refine ⟨stream :: streams, ?_, by rw [List.length_cons, hlength], fun k other hother => ?_⟩
    · rw [createStreams, hstream, Option.bind_eq_bind, Option.bind_some, hleft, hstreams,
        Nat.add_right_comm, Nat.add_assoc]
      rfl
    · cases k with
      | zero =>
        obtain rfl := Option.some.inj hother
        exact hgiven
      | succ k =>
        have hgiven' := hall k other hother
        rwa [Nat.add_right_comm, Nat.add_assoc] at hgiven'

/-- Nothing of the bitrate is lost. -/
theorem sum_targets (h : createStreams width height config count i left = some (streams, left')) :
    (streams.map (·.targetBitrateBps)).sum + left' = left := by
  induction count generalizing i left streams with
  | zero =>
    obtain ⟨rfl, rfl⟩ := Prod.mk.injEq .. ▸ Option.some.inj h
    simp
  | succ count ih =>
    simp only [createStreams, Option.bind_eq_bind, Option.bind_eq_some_iff] at h
    obtain ⟨stream, -, rest, hrest, h⟩ := h
    obtain ⟨rfl, rfl⟩ := Prod.mk.injEq .. ▸ Option.some.inj h
    have hsum := ih hrest
    rw [List.map_cons, List.sum_cons]
    omega

theorem sum_modify {f : VideoStream → VideoStream} {g : VideoStream → ℤ} {c : ℤ}
    (hf : ∀ x, g (f x) = g x + c) {k : ℕ} (hk : k < streams.length) :
    ((streams.modify k f).map g).sum = (streams.map g).sum + c := by
  induction streams generalizing k with
  | nil => exact absurd hk (Nat.not_lt_zero k)
  | cons stream streams ih =>
    cases k with
    | zero =>
      rw [List.modify_zero_cons, List.map_cons, List.map_cons, List.sum_cons, List.sum_cons, hf]
      ring
    | succ k =>
      rw [List.modify_succ_cons, List.map_cons, List.map_cons, List.sum_cons, List.sum_cons,
        ih (Nat.lt_of_succ_lt_succ hk), add_assoc]

theorem map_modify_of_eq {α : Type} {f : VideoStream → VideoStream} {g : VideoStream → α}
    (hf : ∀ x, g (f x) = g x) (k : ℕ) : (streams.modify k f).map g = streams.map g := by
  refine List.ext_getElem? fun i => ?_
  rw [List.getElem?_map, List.getElem?_map, List.getElem?_modify]
  cases streams[i]? with
  | none => rfl
  | some stream =>
    simp only [Option.map_eq_map, Option.map_some]
    split
    · rw [hf]
    · rfl

theorem sum_eq_iff_of_le (h : ∀ stream ∈ streams, stream.targetBitrateBps ≤ stream.maxBitrateBps) :
    (streams.map (·.targetBitrateBps)).sum ≤ (streams.map (·.maxBitrateBps)).sum ∧
      ((streams.map (·.maxBitrateBps)).sum = (streams.map (·.targetBitrateBps)).sum ↔
        ∀ stream ∈ streams, stream.maxBitrateBps = stream.targetBitrateBps) := by
  induction streams with
  | nil => simp
  | cons stream streams ih =>
    obtain ⟨hfirst, hrest⟩ := List.forall_mem_cons.mp h
    obtain ⟨hle, heq⟩ := ih hrest
    simp only [List.map_cons, List.sum_cons, List.forall_mem_cons]
    refine ⟨by omega, ?_⟩
    rw [← heq]
    omega

/-- Twice the bitrate is more than the last stream may use, with what no target needs. -/
theorem fits_of_le (hn : 0 < config.numberOfStreams) (hle : config.numberOfStreams ≤ kMaxNumberOfStreams)
    (h : encoderBitrate config ≤ 2 ^ 30) : Fits config := by
  have hmono : ∀ i, i < kMaxNumberOfStreams → leftFor config i ≤ encoderBitrate config := by
    intro i
    induction i with
    | zero => exact fun _ => le_refl _
    | succ i ih =>
      intro hi
      have hpos := demand_pos config (show i < kMaxNumberOfStreams by omega)
      have hleft := ih (by omega)
      have hbitrate := encoderBitrate_pos hn
      rw [leftFor]
      omega
  obtain ⟨n, hsucc⟩ := Nat.exists_eq_succ_of_ne_zero hn.ne'
  have hleft := hmono n (by omega)
  have hpos := demand_pos config (show n < kMaxNumberOfStreams by omega)
  have hnonneg := leftFor_nonneg hn n
  rw [Fits, hsucc, Nat.succ_sub_one, leftFor]
  omega

/-- Each stream gets as its target what it asks for, as far as the streams below it leave that much.
The streams' maxima are together the bitrate of the encoder, if every stream asks for as much as it may
use of what is left for it, and are more otherwise. Only the maximum of the last one can overflow. -/
theorem total_max_bitrate_iff (width height : ℕ) (config : VideoEncoderConfig)
    (hn : 0 < config.numberOfStreams) (hle : config.numberOfStreams ≤ kMaxNumberOfStreams) :
    ((createVideoStreams width height config).isSome ↔ Fits config) ∧
      ∀ streams, createVideoStreams width height config = some streams →
        streams.length = config.numberOfStreams ∧
        (∀ i stream, streams[i]? = some stream →
          stream.targetBitrateBps = min (leftFor config i) (min (limit config i) (wanted config i))) ∧
        (streams.map (·.targetBitrateBps)).sum ≤ encoderBitrate config ∧
        encoderBitrate config ≤ (streams.map (·.maxBitrateBps)).sum ∧
        ((streams.map (·.maxBitrateBps)).sum = encoderBitrate config ↔
          ∀ i < config.numberOfStreams, min (leftFor config i) (limit config i) ≤ wanted config i) ∧
        (Unscaled config (config.numberOfStreams - 1) →
          ∃ top, streams[config.numberOfStreams - 1]? = some top ∧
            top.width = width ∧ top.height = height) := by
  have hall := createStreams_spec width height hn
    (show 0 + config.numberOfStreams ≤ kMaxNumberOfStreams by omega)
  simp only [Nat.zero_add] at hall
  obtain ⟨streams, hstreams, hlength, hgiven⟩ := hall
  have hsum : (streams.map (·.targetBitrateBps)).sum + leftFor config config.numberOfStreams =
      encoderBitrate config := sum_targets hstreams
  have hleft := leftFor_nonneg hn config.numberOfStreams
  have hlast : config.numberOfStreams - 1 < streams.length := by omega
  have hbase := List.getElem?_eq_getElem hlast
  let raised := streams.modify (config.numberOfStreams - 1) fun stream =>
    { stream with maxBitrateBps := stream.maxBitrateBps + leftFor config config.numberOfStreams }
  let settings := raised.modify 0 fun stream =>
    { stream with bitratePriority := some config.bitratePriority }
  have hcreate : createVideoStreams width height config =
      if Fits config then some settings else none := by
    have hstart : createStreams width height config config.numberOfStreams 0 (encoderBitrate config) =
        some (streams, leftFor config config.numberOfStreams) := hstreams
    simp only [createVideoStreams, hstart, Option.bind_eq_bind, Option.bind_some, hbase, guard,
      (hgiven _ _ hbase).max]
    change (if Fits config then some () else none).bind _ = _
    split <;> rfl
  -- the first change leaves all but the maximum of the last stream alone, the second one all bitrates
  have htargets : settings.map (·.targetBitrateBps) = streams.map (·.targetBitrateBps) :=
    (map_modify_of_eq (by exact fun _ => rfl) _).trans (map_modify_of_eq (by exact fun _ => rfl) _)
  have hmaxima : (settings.map (·.maxBitrateBps)).sum =
      (streams.map (·.maxBitrateBps)).sum + leftFor config config.numberOfStreams :=
    (congrArg List.sum (map_modify_of_eq (by exact fun _ => rfl) _)).trans
      (sum_modify (by exact fun _ => rfl) hlast)
  have hle : ∀ stream ∈ streams, stream.targetBitrateBps ≤ stream.maxBitrateBps := by
    intro stream hmem
    obtain ⟨i, hi, rfl⟩ := List.getElem_of_mem hmem
    have hstream := hgiven i _ (List.getElem?_eq_getElem hi)
    rw [hstream.target, hstream.max]
    omega
  obtain ⟨hsums, hsame⟩ := sum_eq_iff_of_le hle
  have heach : (∀ stream ∈ streams, stream.maxBitrateBps = stream.targetBitrateBps) ↔
      ∀ i < config.numberOfStreams, min (leftFor config i) (limit config i) ≤ wanted config i := by
    constructor
    · intro h i hi
      have hstream := hgiven i _ (List.getElem?_eq_getElem (hlength ▸ hi))
      have hboth := h _ (List.getElem_mem (hlength ▸ hi))
      rw [hstream.max, hstream.target] at hboth
      omega
    · intro h stream hmem
      obtain ⟨i, hi, rfl⟩ := List.getElem_of_mem hmem
      have hstream := hgiven i _ (List.getElem?_eq_getElem hi)
      have hasks := h i (hlength ▸ hi)
      rw [hstream.max, hstream.target]
      omega
  refine ⟨by rw [hcreate]; split <;> simp [*], fun created hcreated => ?_⟩
  obtain rfl : settings = created := by
    rw [hcreate] at hcreated
    split at hcreated
    · exact Option.some.inj hcreated
    · cases hcreated
  refine ⟨by simp [settings, raised, hlength], fun i stream hstream => ?_, ?_, ?_, ?_,
    fun hunscaled => ?_⟩
  · have hat : (streams.map (·.targetBitrateBps))[i]? = some stream.targetBitrateBps := by
      rw [← htargets, List.getElem?_map, hstream]
      rfl
    obtain ⟨base, hbase, hsame⟩ := Option.map_eq_some_iff.mp (List.getElem?_map .. ▸ hat)
    rw [← hsame, (hgiven i base hbase).target]
  · rw [htargets]
    omega
  · rw [hmaxima]
    omega
  · rw [hmaxima, ← heach, ← hsame]
    omega
  · have hsizes : settings.map (fun stream => (stream.width, stream.height)) =
        streams.map fun stream => (stream.width, stream.height) :=
      (map_modify_of_eq (by exact fun _ => rfl) _).trans (map_modify_of_eq (by exact fun _ => rfl) _)
    have hsize := (hgiven _ _ hbase).size hunscaled
    rw [Nat.sub_add_cancel hn, Nat.mul_div_cancel_left _ hn, Nat.mul_div_cancel_left _ hn] at hsize
    have hat : (settings.map fun stream => (stream.width, stream.height))[config.numberOfStreams - 1]? =
        some (width, height) := by
      rw [hsizes, List.getElem?_map, hbase, Option.map_some, hsize.1, hsize.2]
    obtain ⟨top, htop, hpair⟩ := Option.map_eq_some_iff.mp (List.getElem?_map .. ▸ hat)
    exact ⟨top, htop, congrArg Prod.fst hpair, congrArg Prod.snd hpair⟩

/-- What a single stream does not ask for of the bitrate, and may use, is added to its maximum again. -/
theorem lower_target_exceeds_the_bitrate :
    ∃ streams, createVideoStreams 1280 720
        ⟨1, 1000000, 1, [{ targetBitrateBps := 300000, maxBitrateBps := 1000000 }]⟩ = some streams ∧
      1000000 < (streams.map (·.maxBitrateBps)).sum := by
  obtain ⟨hfits, hall⟩ := total_max_bitrate_iff 1280 720
    ⟨1, 1000000, 1, [{ targetBitrateBps := 300000, maxBitrateBps := 1000000 }]⟩ (by decide) (by decide)
  obtain ⟨streams, hcreate⟩ := Option.isSome_iff_exists.mp
    (hfits.mpr (fits_of_le (by decide) (by decide) (by decide)))
  obtain ⟨-, -, -, hle, hiff, -⟩ := hall streams hcreate
  refine ⟨streams, hcreate, lt_of_le_of_ne hle fun heq => ?_⟩
  exact absurd (hiff.mp heq.symm 0 Nat.one_pos) (by decide)

/-- So much is added that the maximum overflows. -/
example : createVideoStreams 1280 720
    ⟨1, 1200000000, 1, [{ targetBitrateBps := 1, maxBitrateBps := 1200000000 }]⟩ = none := by decide

end Shares

end WebrtcGccNs3.Video
