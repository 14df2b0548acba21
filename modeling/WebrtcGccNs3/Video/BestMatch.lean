import Mathlib.Data.List.MinMax
import WebrtcGccNs3.Video.FrameMatcher

/-!
# The decoded frame that a captured frame is paired with

A captured frame is compared with the decode on screen at its capture, and with every
later decode until it is handled. Wider decodes do not count. The best of the others, and
the first of the best, is the one reported. A decoded frame that several captured frames
are paired with numbers them from zero.
-/
namespace WebrtcGccNs3.Video

open Sim (Timestamp)

variable {Buffer : Type} {P : Pictures Buffer}

/-- From the decode on screen at the capture on, those that are not wider, with their places. -/
def candidates (P : Pictures Buffer) (decoded : List Buffer) (since : ℕ) (frame : Buffer) :
    List (Buffer × ℕ) :=
  (decoded.zipIdx.drop (since - 1)).filter fun d => P.width d.1 ≤ P.width frame

/-- The candidate with the smallest error, and the first of these. -/
def bestMatch (P : Pictures Buffer) (decoded : List Buffer) (since : ℕ) (frame : Buffer) :
    Option (Buffer × ℕ) :=
  (candidates P decoded since frame).argmin fun d => P.sse frame d.1

theorem getElem?_of_bestMatch {decoded : List Buffer} {since : ℕ} {frame : Buffer} {d : Buffer × ℕ}
    (h : bestMatch P decoded since frame = some d) : decoded[d.2]? = some d.1 := by
  have hmem : d ∈ candidates P decoded since frame := List.argmin_mem h
  have hzip : d ∈ decoded.zipIdx := List.mem_of_mem_drop (List.mem_filter.mp hmem).1
  exact List.mem_zipIdx_iff_getElem?.mp hzip

theorem candidates_concat {decoded : List Buffer} {since : ℕ} (h : since ≤ decoded.length)
    (frame new : Buffer) : candidates P (decoded ++ [new]) since frame =
      candidates P decoded since frame ++
        if P.width new ≤ P.width frame then [(new, decoded.length)] else [] := by
  have hle : since - 1 ≤ decoded.zipIdx.length := by
    rw [List.length_zipIdx]
    omega
  rw [candidates, candidates, List.zipIdx_append, List.drop_append_of_le_length hle, List.filter_append]
  apply congrArg
  by_cases hw : P.width new ≤ P.width frame <;> simp [hw]

theorem bestMatch_concat {decoded : List Buffer} {since : ℕ} (h : since ≤ decoded.length)
    (frame new : Buffer) : bestMatch P (decoded ++ [new]) since frame =
      if P.width frame < P.width new then bestMatch P decoded since frame
      else match bestMatch P decoded since frame with
        | none => some (new, decoded.length)
        | some d => if P.sse frame new < P.sse frame d.1 then some (new, decoded.length) else some d := by
  rw [bestMatch, candidates_concat h]
  by_cases hw : P.width frame < P.width new
  · rw [if_pos hw, if_neg (by omega), List.append_nil, bestMatch]
  · rw [if_neg hw, if_pos (by omega), List.argmin_concat, ← bestMatch]
    cases bestMatch P decoded since frame <;> rfl

/-- What a captured frame that waits knows of its best decode. -/
structure Scored (P : Pictures Buffer) (decoded : List Buffer) (c : CapturedFrame Buffer) : Prop where
  since_le : c.since ≤ decoded.length
  decode : c.bestDecode = (bestMatch P decoded c.since c.capture.frame).map (·.2)
  score : c.bestScore = (bestMatch P decoded c.since c.capture.frame).map fun d =>
    P.sse c.capture.frame d.1
  matched : c.matched → c.since < decoded.length ∧
    bestMatch P decoded.dropLast c.since c.capture.frame = bestMatch P decoded c.since c.capture.frame

/-- A decode that is wider or no better is a match, and another is the new best. -/
theorem scored_compare {decoded : List Buffer} {c : CapturedFrame Buffer} (h : Scored P decoded c)
    (new : Buffer) : Scored P (decoded ++ [new]) (VideoLayer.compare P new decoded.length c) := by
  have hbest := bestMatch_concat (P := P) h.since_le c.capture.frame new
  have hlt : c.since < (decoded ++ [new]).length := by
    rw [List.length_append, List.length_singleton]
    exact Nat.lt_succ_of_le h.since_le
  have hkeep : bestMatch P (decoded ++ [new]) c.since c.capture.frame =
      bestMatch P decoded c.since c.capture.frame →
      Scored P (decoded ++ [new]) { c with matched := true } := by
    intro heq
    refine ⟨hlt.le, ?_, ?_, fun _ => ⟨hlt, ?_⟩⟩
    · rw [heq]
      exact h.decode
    · rw [heq]
      exact h.score
    · rw [heq, List.dropLast_concat]
  rw [VideoLayer.compare]
  split
  · next hwide => exact hkeep (by rw [hbest, if_pos hwide])
  · next hwide =>
    rw [if_neg hwide] at hbest
    have hscore := h.score
    cases hold : bestMatch P decoded c.since c.capture.frame with
    | none =>
      rw [hold] at hbest hscore
      have hall : c.bestScore.all (P.sse c.capture.frame new < ·) = true := by rw [hscore]; rfl
      simp only [hall, if_true]
      exact ⟨hlt.le, by rw [hbest]; rfl, by rw [hbest]; rfl, fun hm => by cases hm⟩
    | some d =>
      rw [hold] at hbest hscore
      have hall : c.bestScore.all (P.sse c.capture.frame new < ·) =
          decide (P.sse c.capture.frame new < P.sse c.capture.frame d.1) := by rw [hscore]; rfl
      by_cases hlt' : P.sse c.capture.frame new < P.sse c.capture.frame d.1
      · simp only [hall, hlt', decide_true, if_true]
        simp only [hlt', if_true] at hbest
        exact ⟨hlt.le, by rw [hbest]; rfl, by rw [hbest]; rfl, fun hm => by cases hm⟩
      · simp only [hall, hlt', decide_false]
        simp only [hlt', if_false] at hbest
        exact hkeep (by rw [hbest, hold])

theorem bestMatch_last (decoded : List Buffer) (last frame : Buffer) :
    bestMatch P (decoded ++ [last]) (decoded.length + 1) frame =
      if P.width last ≤ P.width frame then some (last, decoded.length) else none := by
  have hnone : bestMatch P decoded decoded.length.succ frame = none := by
    have hnil : decoded.zipIdx.drop (decoded.length.succ - 1) = [] := by
      apply List.drop_eq_nil_of_le
      rw [List.length_zipIdx]
      exact le_rfl
    rw [bestMatch, candidates, hnil]
    rfl
  have hdrop : (decoded ++ [last]).zipIdx.drop (decoded.length + 1 - 1) = [(last, decoded.length)] := by
    rw [List.zipIdx_append]
    simp
  rw [bestMatch, candidates, hdrop]
  by_cases hw : P.width last ≤ P.width frame <;> simp [hw]

namespace VideoLayer

variable {layer : VideoLayer Buffer} {layerId : Int}

/-- The buffers of the decoded frames. -/
def frames (layer : VideoLayer Buffer) : List Buffer := layer.decoded.map (·.frame)

@[simp] theorem length_frames : layer.frames.length = layer.decoded.length := List.length_map ..

/-- The decode on screen is the last one. -/
def LastOnScreen (layer : VideoLayer Buffer) : Prop :=
  layer.lastDecode = if layer.decoded = [] then none else some (layer.decoded.length - 1)

theorem scored_copy (h : layer.LastOnScreen) (captured : Capture Buffer) :
    Scored P layer.frames (layer.copy P captured) := by
  rcases List.eq_nil_or_concat' layer.decoded with hnil | ⟨before, last, hdecoded⟩
  · have hobject : layer.object layer.lastDecode = none := by
      rw [LastOnScreen, if_pos hnil] at h
      rw [h]
      rfl
    have hbest : bestMatch P layer.frames layer.decoded.length captured.frame = none := by
      rw [frames, hnil]
      rfl
    rw [copy, hobject]
    exact ⟨by simp, by rw [hbest]; rfl, by rw [hbest]; rfl, fun hm => by cases hm⟩
  · have hobject : layer.object layer.lastDecode = some (before.length, last) := by
      rw [LastOnScreen, if_neg (by simp [hdecoded])] at h
      rw [h, object, hdecoded]
      simp
    have hbest : bestMatch P layer.frames layer.decoded.length captured.frame =
        if P.width last.frame ≤ P.width captured.frame then some (last.frame, before.length) else none := by
      have hlast := bestMatch_last (P := P) (before.map (·.frame)) last.frame captured.frame
      rw [List.length_map] at hlast
      rw [frames, hdecoded, List.map_append, List.map_singleton, List.length_append, List.length_singleton]
      exact hlast
    rw [copy, hobject]
    by_cases hw : P.width last.frame ≤ P.width captured.frame
    · rw [if_pos hw] at hbest
      simp only [hw, if_true]
      exact ⟨by simp, by rw [hbest]; rfl, by rw [hbest]; rfl, fun hm => by cases hm⟩
    · rw [if_neg hw] at hbest
      simp only [hw, if_false]
      exact ⟨by simp, by rw [hbest]; rfl, by rw [hbest]; rfl, fun hm => by cases hm⟩

end VideoLayer

/-- The pair names this decode, or none. -/
def VideoFramePair.Names (pair : VideoFramePair Buffer) : Option (Buffer × ℕ) → Prop
  | some d => pair.decoded = some d.1 ∧ pair.decodeId = d.2 + 1
  | none => pair.decoded = none ∧ pair.decodeId = 0

/-- How often a decode has been reported. -/
def timesReported (reported : List (Report Buffer)) (decodeId : ℕ) : ℕ :=
  reported.countP (·.pair.decodeId = decodeId)

/-- What the layer's decoded frames and the reports so far say of each other. -/
structure Recorded (P : Pictures Buffer) (layer : VideoLayer Buffer) : Prop where
  last : layer.LastOnScreen
  next : layer.nextDecodedId = layer.decoded.length + 1
  object : ∀ i d, layer.decoded[i]? = some d →
    d.id = i + 1 ∧ d.repeatCount = timesReported layer.reported (i + 1)
  best : ∀ r ∈ layer.reported, r.since ≤ r.til ∧ r.til ≤ layer.frames.length ∧
    r.pair.Names (bestMatch P (layer.frames.take r.til) r.since r.pair.capture.frame)
  repeated : ∀ i r, layer.reported[i]? = some r → r.pair.decoded ≠ none →
    r.pair.repeated = timesReported (layer.reported.take i) r.pair.decodeId

theorem recorded_fresh (n : ℕ) : Recorded P ({ registered := n } : VideoLayer Buffer) := by
  constructor
  · rfl
  · rfl
  · intro i d hd
    cases hd
  · intro r hr
    cases hr
  · intro i r hr
    cases hr

@[simp] theorem timesReported_concat (reported : List (Report Buffer)) (r : Report Buffer) (i : ℕ) :
    timesReported (reported ++ [r]) i =
      timesReported reported i + if r.pair.decodeId = i then 1 else 0 := by
  rw [timesReported, timesReported, List.countP_append, List.countP_singleton]
  simp

theorem Recorded.decodeId_le {layer : VideoLayer Buffer} (h : Recorded P layer) {r : Report Buffer}
    (hr : r ∈ layer.reported) : r.pair.decodeId ≤ layer.decoded.length := by
  obtain ⟨-, htil, hnames⟩ := h.best r hr
  cases hbest : bestMatch P (layer.frames.take r.til) r.since r.pair.capture.frame with
  | none =>
    rw [hbest] at hnames
    rw [hnames.2]
    exact Nat.zero_le _
  | some d =>
    rw [hbest] at hnames
    obtain ⟨hlt, -⟩ := List.getElem?_eq_some_iff.mp (getElem?_of_bestMatch hbest)
    rw [List.length_take, VideoLayer.length_frames] at hlt
    rw [hnames.2]
    omega

theorem recorded_addDecoded {layer : VideoLayer Buffer} (h : Recorded P layer) (frame : Buffer)
    (renderTime atTime : Timestamp) : Recorded P (layer.addDecoded P frame renderTime atTime) := by
  constructor
  · simp [VideoLayer.LastOnScreen, VideoLayer.addDecoded]
  · simp [VideoLayer.addDecoded, h.next]
  · intro i d hd
    rw [VideoLayer.addDecoded] at hd
    by_cases hi : i < layer.decoded.length
    · rw [List.getElem?_append_left hi] at hd
      exact h.object i d hd
    · have hnew : i = layer.decoded.length := by
        obtain ⟨hlt, -⟩ := List.getElem?_eq_some_iff.mp hd
        rw [List.length_append, List.length_singleton] at hlt
        omega
      subst hnew
      rw [List.getElem?_concat_length] at hd
      cases hd
      refine ⟨h.next, (List.countP_eq_zero.mpr fun r hr => ?_).symm⟩
      have hle := h.decodeId_le hr
      simp only [decide_eq_true_eq]
      omega
  · intro r hr
    obtain ⟨hsince, htil, hnames⟩ := h.best r hr
    have hframes : (layer.addDecoded P frame renderTime atTime).frames = layer.frames ++ [frame] := by
      simp [VideoLayer.frames, VideoLayer.addDecoded]
    rw [hframes, List.take_append_of_le_length htil]
    exact ⟨hsince, htil.trans (by simp), hnames⟩
  · exact h.repeated

theorem frames_handleMatch (layer : VideoLayer Buffer) (layerId : Int) (c : CapturedFrame Buffer) :
    (layer.handleMatch layerId c).frames = layer.frames := by
  rw [VideoLayer.frames, VideoLayer.frames, VideoLayer.handleMatch]
  cases hobject : layer.object c.bestDecode with
  | none => rfl
  | some e =>
    obtain ⟨i, best⟩ := e
    obtain ⟨j, -, hj⟩ := Option.bind_eq_some_iff.mp hobject
    obtain ⟨d, hd, he⟩ := Option.map_eq_some_iff.mp hj
    cases he
    simp only [List.map_set]
    obtain ⟨hlt, hget⟩ := List.getElem?_eq_some_iff.mp hd
    subst hget
    have hframes : i < (layer.decoded.map (·.frame)).length := by simpa using hlt
    have hset := List.set_getElem_self hframes
    rwa [List.getElem_map] at hset

/-- The pair of a captured frame, and the decode that it counts. -/
theorem framePair_of_scored {layer : VideoLayer Buffer} (h : Recorded P layer) {c : CapturedFrame Buffer}
    (hc : Scored P layer.frames c) :
    (∃ i best, layer.object c.bestDecode = some (i, best) ∧ layer.decoded[i]? = some best ∧
        bestMatch P layer.frames c.since c.capture.frame = some (best.frame, i) ∧ best.id = i + 1) ∨
      layer.object c.bestDecode = none ∧
        bestMatch P layer.frames c.since c.capture.frame = none := by
  have hdecode := hc.decode
  cases hbest : bestMatch P layer.frames c.since c.capture.frame with
  | none =>
    rw [hbest] at hdecode
    rw [hdecode]
    exact Or.inr ⟨rfl, rfl⟩
  | some d =>
    rw [hbest] at hdecode
    have hget := getElem?_of_bestMatch hbest
    rw [VideoLayer.frames, List.getElem?_map] at hget
    obtain ⟨best, hat, hframe⟩ := Option.map_eq_some_iff.mp hget
    left
    refine ⟨d.2, best, ?_, hat, ?_, (h.object d.2 best hat).1⟩
    · rw [hdecode, VideoLayer.object, Option.map_some, Option.bind_some, hat]
      rfl
    · rw [hframe]

theorem recorded_handleMatch {layer : VideoLayer Buffer} (h : Recorded P layer) {c : CapturedFrame Buffer}
    (hc : Scored P layer.frames c) (layerId : Int) : Recorded P (layer.handleMatch layerId c) := by
  have hframes := frames_handleMatch layer layerId c
  have hlength : (layer.handleMatch layerId c).decoded.length = layer.decoded.length := by
    rw [← VideoLayer.length_frames, hframes, VideoLayer.length_frames]
  have hreported : (layer.handleMatch layerId c).reported =
    layer.reported ++ [⟨layer.framePair layerId c, c.since, layer.decoded.length⟩] := rfl
  have hpair : (layer.framePair layerId c).Names (bestMatch P layer.frames c.since c.capture.frame) := by
    rcases framePair_of_scored h hc with ⟨i, best, hobject, -, hbest, hid⟩ | ⟨hobject, hbest⟩
    · rw [VideoLayer.framePair, hobject, hbest]
      exact ⟨rfl, hid⟩
    · rw [VideoLayer.framePair, hobject, hbest]
      exact ⟨rfl, rfl⟩
  constructor
  · have hlast := h.last
    have hempty : (layer.handleMatch layerId c).decoded = [] ↔ layer.decoded = [] := by
      rw [← List.length_eq_zero_iff, hlength, List.length_eq_zero_iff]
    simp only [VideoLayer.LastOnScreen, hlength, hempty]
    exact hlast
  · rw [hlength]
    exact h.next
  · intro i d hd
    rcases framePair_of_scored h hc with ⟨j, best, hobject, hbest, -, hid⟩ | ⟨hobject, -⟩
    · have hdecodeId : (layer.framePair layerId c).decodeId = j + 1 := by
        rw [VideoLayer.framePair, hobject]
        exact hid
      have hdecoded : (layer.handleMatch layerId c).decoded =
          layer.decoded.set j { best with repeatCount := best.repeatCount + 1 } := by
        rw [VideoLayer.handleMatch, hobject]
      rw [hreported, timesReported_concat, hdecodeId]
      rw [hdecoded] at hd
      by_cases hij : j = i
      · subst hij
        obtain ⟨hlt, -⟩ := List.getElem?_eq_some_iff.mp hbest
        rw [List.getElem?_set_self hlt] at hd
        cases hd
        rw [if_pos rfl]
        exact ⟨hid, congrArg (· + 1) (h.object j best hbest).2⟩
      · rw [List.getElem?_set_ne hij] at hd
        rw [if_neg (by omega)]
        exact h.object i d hd
    · have hdecodeId : (layer.framePair layerId c).decodeId = 0 := by rw [VideoLayer.framePair, hobject]
      have hdecoded : (layer.handleMatch layerId c).decoded = layer.decoded := by
        rw [VideoLayer.handleMatch, hobject]
      rw [hreported, timesReported_concat, hdecodeId, if_neg (by omega)]
      rw [hdecoded] at hd
      exact h.object i d hd
  · intro r hr
    rw [hframes]
    rw [hreported] at hr
    rcases List.mem_append.mp hr with hr | hr
    · exact h.best r hr
    · obtain rfl := List.mem_singleton.mp hr
      refine ⟨by simpa using hc.since_le, by simp, ?_⟩
      rw [List.take_of_length_le (by simp), VideoLayer.framePair_capture]
      exact hpair
  · intro i r hr hsome
    rw [hreported] at hr ⊢
    by_cases hi : i < layer.reported.length
    · rw [List.getElem?_append_left hi] at hr
      rw [List.take_append_of_le_length hi.le]
      exact h.repeated i r hr hsome
    · have hnew : i = layer.reported.length := by
        obtain ⟨hlt, -⟩ := List.getElem?_eq_some_iff.mp hr
        rw [List.length_append, List.length_singleton] at hlt
        omega
      subst hnew
      rw [List.getElem?_concat_length] at hr
      cases hr
      rw [List.take_left]
      rcases framePair_of_scored h hc with ⟨j, best, hobject, hbest, -, hid⟩ | ⟨hobject, -⟩
      · have hrepeated : (layer.framePair layerId c).repeated = best.repeatCount := by
          rw [VideoLayer.framePair, hobject]
        have hdecodeId : (layer.framePair layerId c).decodeId = j + 1 := by
          rw [VideoLayer.framePair, hobject]
          exact hid
        rw [hrepeated, hdecodeId]
        exact (h.object j best hbest).2
      · exact absurd (by rw [VideoLayer.framePair, hobject]) hsome

/-- The decode before a frame was handled was no better than the best until then. -/
def Settled (P : Pictures Buffer) (frames : List Buffer) (r : Report Buffer) : Prop :=
  r.since < r.til ∧ bestMatch P (frames.take (r.til - 1)) r.since r.pair.capture.frame =
    bestMatch P (frames.take r.til) r.since r.pair.capture.frame

theorem recorded_handleWhile {layer : VideoLayer Buffer} (h : Recorded P layer)
    {cs : List (CapturedFrame Buffer)} (hcs : ∀ c ∈ cs, Scored P layer.frames c)
    (p : CapturedFrame Buffer → Bool) (layerId : Int) :
    Recorded P (VideoLayer.handleWhile p layerId layer cs).1 ∧
      (VideoLayer.handleWhile p layerId layer cs).1.frames = layer.frames := by
  apply VideoLayer.handleWhile_induction (I := fun l => Recorded P l ∧ l.frames = layer.frames) _ _ ⟨h, rfl⟩
  · rintro l c hc - ⟨hl, hframes⟩
    have hscored : Scored P l.frames c := by
      rw [hframes]
      exact hcs c hc
    exact ⟨recorded_handleMatch hl hscored layerId, (frames_handleMatch l layerId c).trans hframes⟩
  · rintro l rest ⟨hl, hframes⟩
    exact ⟨⟨hl.last, hl.next, hl.object, hl.best, hl.repeated⟩, hframes⟩

theorem settled_handleWhile {layer : VideoLayer Buffer}
    (h : ∀ r ∈ layer.reported, Settled P layer.frames r) {cs : List (CapturedFrame Buffer)}
    (hcs : ∀ c ∈ cs, Scored P layer.frames c) (layerId : Int) :
    ∀ r ∈ (VideoLayer.handleWhile (·.matched) layerId layer cs).1.reported, Settled P layer.frames r := by
  have hI : (VideoLayer.handleWhile (·.matched) layerId layer cs).1.frames = layer.frames ∧
      ∀ r ∈ (VideoLayer.handleWhile (·.matched) layerId layer cs).1.reported,
        Settled P layer.frames r := by
    apply VideoLayer.handleWhile_induction (I := fun l => l.frames = layer.frames ∧
      ∀ r ∈ l.reported, Settled P layer.frames r) _ (fun _ _ hl => hl) ⟨rfl, h⟩
    rintro l c hc hmatched ⟨hframes, hl⟩
    refine ⟨(frames_handleMatch l layerId c).trans hframes, fun r hr => ?_⟩
    rcases List.mem_append.mp hr with hr | hr
    · exact hl r hr
    · obtain rfl := List.mem_singleton.mp hr
      obtain ⟨hlt, hbest⟩ := (hcs c hc).matched hmatched
      have htil : l.decoded.length = layer.frames.length := by
        rw [← VideoLayer.length_frames, hframes]
      rw [Settled, htil, List.take_length, ← List.dropLast_eq_take, VideoLayer.framePair_capture]
      exact ⟨hlt, hbest⟩
  exact hI.2

/-- What every layer satisfies in every state. -/
structure Paired (P : Pictures Buffer) (layer : VideoLayer Buffer) : Prop where
  recorded : Recorded P layer
  scored : ∀ c ∈ layer.capturedFrames, Scored P layer.frames c
  settled : ∀ r ∈ layer.reported, Settled P layer.frames r

theorem paired_onCapturedFrame {layer : VideoLayer Buffer} (h : Paired P layer) (captured : Capture Buffer) :
    Paired P (layer.onCapturedFrame P captured) := by
  obtain ⟨hr, hscored, hsettled⟩ := h
  refine ⟨⟨hr.last, hr.next, hr.object, hr.best, hr.repeated⟩, fun c hc => ?_, hsettled⟩
  rcases List.mem_append.mp hc with hc | hc
  · exact hscored c hc
  · obtain rfl := List.mem_singleton.mp hc
    exact VideoLayer.scored_copy hr.last captured

theorem paired_addDecoded {layer : VideoLayer Buffer} (h : Paired P layer) (frame : Buffer)
    (renderTime atTime : Timestamp) : Paired P (layer.addDecoded P frame renderTime atTime) := by
  have hframes : (layer.addDecoded P frame renderTime atTime).frames = layer.frames ++ [frame] := by
    simp [VideoLayer.frames, VideoLayer.addDecoded]
  refine ⟨recorded_addDecoded h.recorded frame renderTime atTime, fun c hc => ?_, fun r hr => ?_⟩
  · obtain ⟨old, hold, rfl⟩ := List.mem_map.mp hc
    have hcompare := scored_compare (h.scored old hold) frame
    have hlength : layer.frames.length = layer.decoded.length := VideoLayer.length_frames
    rwa [hframes, ← hlength]
  · obtain ⟨hlt, hbest⟩ := h.settled r hr
    have htil := (h.recorded.best r hr).2.1
    rw [Settled, hframes, List.take_append_of_le_length htil,
      List.take_append_of_le_length (by omega)]
    exact ⟨hlt, hbest⟩

theorem paired_onDecodedFrame {layer : VideoLayer Buffer} (h : Paired P layer) (layerId : Int)
    (frame : Buffer) (renderTime atTime : Timestamp) :
    Paired P (layer.onDecodedFrame P layerId frame renderTime atTime).1 := by
  have hadd := paired_addDecoded h frame renderTime atTime
  obtain ⟨hrecorded, hframes⟩ := recorded_handleWhile hadd.recorded hadd.scored (·.matched) layerId
  refine ⟨hrecorded, fun c hc => ?_, ?_⟩
  · rw [VideoLayer.onDecodedFrame, VideoLayer.handleWhile_capturedFrames] at hc
    rw [VideoLayer.onDecodedFrame, hframes]
    exact hadd.scored c (List.dropWhile_subset _ hc)
  · rw [VideoLayer.onDecodedFrame, hframes]
    exact settled_handleWhile hadd.settled hadd.scored layerId

theorem paired_of_run {as : List (VideoFrameMatcher.Act Buffer)} {s : VideoFrameMatcher Buffer}
    (hrun : Machine.run (VideoFrameMatcher.step P) {} as = some s) {layerId : Int}
    {layer : VideoLayer Buffer} (hlayer : s.layers[layerId]? = some layer) : Paired P layer := by
  apply VideoFrameMatcher.layer_invariant (I := fun _ _ l => Paired P l) _ _ _ hrun hlayer
  · intro cs hs
    exact ⟨recorded_fresh cs.length, fun c hc => (by cases hc), fun r hr => (by cases hr)⟩
  · intro cs hs l c hl
    exact paired_onCapturedFrame hl c
  · intro cs hs l frame renderTime atTime hl
    exact paired_onDecodedFrame hl layerId frame renderTime atTime

namespace VideoFrameMatcher

variable {Buffer : Type}

/-- In every run, and also after the destructor: each captured frame is reported with the best of
the decodes from the one on screen at its capture to the last one before the report. A frame that is
reported in the run itself has seen a decode after its capture that was no better. -/
theorem reported_decode_is_best (P : Pictures Buffer) (as : List (Act Buffer))
    (s : VideoFrameMatcher Buffer) (hrun : Machine.run (step P) {} as = some s) (layerId : Int)
    (layer : VideoLayer Buffer) (hlayer : s.layers[layerId]? = some layer) :
    (∀ r ∈ (layer.finalize layerId).1.reported, r.since ≤ r.til ∧ r.til ≤ layer.frames.length ∧
        r.pair.Names (bestMatch P (layer.frames.take r.til) r.since r.pair.capture.frame)) ∧
      ∀ r ∈ layer.reported, r.since < r.til ∧
        bestMatch P (layer.frames.take (r.til - 1)) r.since r.pair.capture.frame =
          bestMatch P (layer.frames.take r.til) r.since r.pair.capture.frame := by
  obtain ⟨hrecorded, hscored, hsettled⟩ := paired_of_run hrun hlayer
  obtain ⟨hfinal, hframes⟩ := recorded_handleWhile hrecorded hscored (fun _ => true) layerId
  refine ⟨fun r hr => ?_, hsettled⟩
  rw [← hframes]
  exact hfinal.best r hr

theorem widening_reports_best : ∃ (s : VideoFrameMatcher ℕ) (layer : VideoLayer ℕ),
    s.layers[(0 : Int)]? = some layer ∧ layer.frames = [3, 6] ∧
      ∀ r ∈ layer.reported, r.since < r.til ∧
        bestMatch widths ([3, 6].take (r.til - 1)) r.since r.pair.capture.frame =
          bestMatch widths ([3, 6].take r.til) r.since r.pair.capture.frame := by
  have hrun : ∃ (s : VideoFrameMatcher ℕ) (layer : VideoLayer ℕ),
      Machine.run (step widths) {} wideningSteps = some s ∧ s.layers[(0 : Int)]? = some layer ∧
        layer.frames = [3, 6] := ⟨_, _, rfl, rfl, rfl⟩
  obtain ⟨s, layer, hrun, hlayer, hframes⟩ := hrun
  obtain ⟨-, hsettled⟩ := reported_decode_is_best widths wideningSteps s hrun 0 layer hlayer
  rw [hframes] at hsettled
  exact ⟨s, layer, hlayer, hframes, hsettled⟩

/-- The pairs that share a decoded frame number their repeats 0, 1, 2, ..., across the run and the
destructor. -/
theorem repeats_count_up (P : Pictures Buffer) (as : List (Act Buffer)) (s : VideoFrameMatcher Buffer)
    (hrun : Machine.run (step P) {} as = some s) (layerId : Int) (layer : VideoLayer Buffer)
    (hlayer : s.layers[layerId]? = some layer) (i : ℕ) (r : Report Buffer)
    (hr : (layer.finalize layerId).1.reported[i]? = some r) (hdecoded : r.pair.decoded ≠ none) :
    r.pair.repeated =
      timesReported ((layer.finalize layerId).1.reported.take i) r.pair.decodeId := by
  obtain ⟨hrecorded, hscored, -⟩ := paired_of_run hrun hlayer
  obtain ⟨hfinal, -⟩ := recorded_handleWhile hrecorded hscored (fun _ => true) layerId
  exact hfinal.repeated i r hr hdecoded

/-- The second captured frame of the run repeats the only decode that is narrow enough. -/
theorem widening_repeats : ∃ (s : VideoFrameMatcher ℕ) (layer : VideoLayer ℕ) (r : Report ℕ),
    s.layers[(0 : Int)]? = some layer ∧ (layer.finalize 0).1.reported[1]? = some r ∧
      r.pair.repeated = 1 ∧
      r.pair.repeated = timesReported ((layer.finalize 0).1.reported.take 1) r.pair.decodeId := by
  have hrun : ∃ (s : VideoFrameMatcher ℕ) (layer : VideoLayer ℕ) (r : Report ℕ),
      Machine.run (step widths) {} wideningSteps = some s ∧ s.layers[(0 : Int)]? = some layer ∧
        (layer.finalize 0).1.reported[1]? = some r ∧ r.pair.repeated = 1 ∧ r.pair.decoded = some 3 :=
    ⟨_, _, _, rfl, rfl, rfl, rfl, rfl⟩
  obtain ⟨s, layer, r, hrun, hlayer, hr, hone, hdecoded⟩ := hrun
  refine ⟨s, layer, r, hlayer, hr, hone, ?_⟩
  exact repeats_count_up widths wideningSteps s hrun 0 layer hlayer 1 r hr (by rw [hdecoded]; simp)

end VideoFrameMatcher

end WebrtcGccNs3.Video
