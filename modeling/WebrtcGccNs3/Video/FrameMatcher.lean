import Mathlib.Data.List.MinMax
import Mathlib.Data.List.TakeWhile
import WebrtcGccNs3.Lib.Machine
import WebrtcGccNs3.Sim.Timestamp

/-!
# VideoFrameMatcher

Frames are captured at the sender and decoded at the receiver, and the matcher pairs each
captured frame with the decoded frame that looks most like it. A layer keeps the captured
frames that wait for a pair, and each `RegisterLayer`, capture and decode is one task of
its queue. `Pictures` is what libyuv says about two frame buffers: a squared error of
thumbnails, an integer far below 2^53. The counters and ids are `int`s in the source, so
all of this is about runs of fewer than 2^31 frames. A `DecodedFrame` is shared, so a
reference to it is its place among the layer's decoded frames.
-/
namespace WebrtcGccNs3.Video

open Sim (Timestamp)

structure Pictures (Buffer : Type) where
  width : Buffer → ℕ
  /-- `I420SSE` of the thumbnail of a captured and that of a decoded frame. -/
  sse : Buffer → Buffer → ℕ

variable {Buffer : Type}

structure DecodedFrame (Buffer : Type) where
  id : ℕ
  decodedTime : Timestamp
  renderTime : Timestamp
  frame : Buffer
  repeatCount : ℕ := 0

/-- What is known of a frame when it is captured. -/
structure Capture (Buffer : Type) where
  id : ℕ
  captureTime : Timestamp
  frame : Buffer

structure CapturedFrame (Buffer : Type) where
  capture : Capture Buffer
  /-- `none` is infinity. -/
  bestScore : Option ℕ := none
  bestDecode : Option ℕ := none
  matched : Bool := false
  /-- How many frames the layer had decoded when it was captured. -/
  since : ℕ

/-- What the handlers are given. -/
structure VideoFramePair (Buffer : Type) where
  capture : Capture Buffer
  decoded : Option Buffer := none
  decodedTime : Timestamp := .plusInfinity
  renderTime : Timestamp := .plusInfinity
  layerId : Int
  decodeId : ℕ := 0
  repeated : ℕ := 0

/-- A pair given to the handlers, and how many frames the layer had decoded when the captured
frame came and when it left. -/
structure Report (Buffer : Type) where
  pair : VideoFramePair Buffer
  since : ℕ
  til : ℕ

structure VideoLayer (Buffer : Type) where
  capturedFrames : List (CapturedFrame Buffer) := []
  lastDecode : Option ℕ := none
  nextDecodedId : ℕ := 1
  /-- The frames decoded since the layer was registered. -/
  decoded : List (DecodedFrame Buffer) := []
  /-- How many frames had been captured when the layer was registered. -/
  registered : ℕ
  /-- What the handlers have been given since then. -/
  reported : List (Report Buffer) := []

namespace VideoLayer

/-- The object that a reference is to. -/
def object (layer : VideoLayer Buffer) (ref : Option ℕ) : Option (ℕ × DecodedFrame Buffer) :=
  ref.bind fun i => layer.decoded[i]?.map (i, ·)

/-- The copy of a captured frame that the layer keeps. -/
def copy (P : Pictures Buffer) (layer : VideoLayer Buffer) (captured : Capture Buffer) :
    CapturedFrame Buffer :=
  match layer.object layer.lastDecode with
  | some (i, last) =>
    if P.width last.frame ≤ P.width captured.frame then
      { capture := captured, since := layer.decoded.length, bestDecode := some i
        bestScore := some (P.sse captured.frame last.frame) }
    else { capture := captured, since := layer.decoded.length }
  | none => { capture := captured, since := layer.decoded.length }

def onCapturedFrame (P : Pictures Buffer) (layer : VideoLayer Buffer) (captured : Capture Buffer) :
    VideoLayer Buffer :=
  { layer with capturedFrames := layer.capturedFrames ++ [layer.copy P captured] }

/-- What a newly decoded frame, the `i`-th of the layer, does to a captured frame that waits. -/
def compare (P : Pictures Buffer) (decoded : Buffer) (i : ℕ) (captured : CapturedFrame Buffer) :
    CapturedFrame Buffer :=
  if P.width captured.capture.frame < P.width decoded then { captured with matched := true }
  else
    let score := P.sse captured.capture.frame decoded
    if captured.bestScore.all (score < ·) then
      { captured with bestScore := some score, bestDecode := some i, matched := false }
    else { captured with matched := true }

def framePair (layerId : Int) (layer : VideoLayer Buffer) (captured : CapturedFrame Buffer) :
    VideoFramePair Buffer :=
  match layer.object captured.bestDecode with
  | some (_, best) =>
    { capture := captured.capture, layerId, decodeId := best.id, decoded := some best.frame
      decodedTime := best.decodedTime, renderTime := max best.renderTime best.decodedTime
      repeated := best.repeatCount }
  | none => { capture := captured.capture, layerId }

/-- `HandleMatch` counts the repeats of the shared object, and calls the handlers. -/
def handleMatch (layerId : Int) (layer : VideoLayer Buffer) (captured : CapturedFrame Buffer) :
    VideoLayer Buffer :=
  { layer with
    decoded := match layer.object captured.bestDecode with
      | some (i, best) => layer.decoded.set i { best with repeatCount := best.repeatCount + 1 }
      | none => layer.decoded
    reported := layer.reported ++
      [⟨layer.framePair layerId captured, captured.since, layer.decoded.length⟩] }

/-- `while (!captured_frames.empty() && p(front)) { HandleMatch(front); pop_front(); }` -/
def handleWhile (p : CapturedFrame Buffer → Bool) (layerId : Int) :
    VideoLayer Buffer → List (CapturedFrame Buffer) → VideoLayer Buffer × List (VideoFramePair Buffer)
  | layer, [] => ({ layer with capturedFrames := [] }, [])
  | layer, captured :: rest =>
    if p captured then
      let (layer', pairs) := handleWhile p layerId (layer.handleMatch layerId captured) rest
      (layer', layer.framePair layerId captured :: pairs)
    else ({ layer with capturedFrames := captured :: rest }, [])

/-- `OnDecodedFrame`, up to its loop over the frames that have matched. -/
def addDecoded (P : Pictures Buffer) (layer : VideoLayer Buffer) (frame : Buffer)
    (renderTime atTime : Timestamp) : VideoLayer Buffer :=
  { layer with
    nextDecodedId := layer.nextDecodedId + 1
    decoded := layer.decoded ++ [⟨layer.nextDecodedId, atTime, renderTime, frame, 0⟩]
    lastDecode := some layer.decoded.length
    capturedFrames := layer.capturedFrames.map (compare P frame layer.decoded.length) }

def onDecodedFrame (P : Pictures Buffer) (layerId : Int) (layer : VideoLayer Buffer) (frame : Buffer)
    (renderTime atTime : Timestamp) : VideoLayer Buffer × List (VideoFramePair Buffer) :=
  let layer := layer.addDecoded P frame renderTime atTime
  handleWhile (·.matched) layerId layer layer.capturedFrames

/-- The layer's part of `Finalize`. -/
def finalize (layerId : Int) (layer : VideoLayer Buffer) :
    VideoLayer Buffer × List (VideoFramePair Buffer) :=
  handleWhile (fun _ => true) layerId layer layer.capturedFrames

end VideoLayer

structure VideoFrameMatcher (Buffer : Type) where
  nextCaptureId : ℕ := 1
  layers : Std.TreeMap Int (VideoLayer Buffer) := ∅
  /-- The frames captured so far. -/
  captures : List (Capture Buffer) := []
  /-- The calls of the handlers so far. -/
  handled : List (VideoFramePair Buffer) := []

namespace VideoFrameMatcher

inductive Act (Buffer : Type) where
  | registerLayer (layerId : Int)
  | capturedFrame (frame : Buffer) (atTime : Timestamp)
  | decodedFrame (frame : Buffer) (layerId : Int) (renderTime atTime : Timestamp)

def registerLayer (s : VideoFrameMatcher Buffer) (layerId : Int) : VideoFrameMatcher Buffer :=
  { s with layers := s.layers.insert layerId { registered := s.captures.length } }

def onCapturedFrame (P : Pictures Buffer) (s : VideoFrameMatcher Buffer) (frame : Buffer)
    (atTime : Timestamp) : VideoFrameMatcher Buffer :=
  let captured := ⟨s.nextCaptureId, atTime, frame⟩
  { s with
    nextCaptureId := s.nextCaptureId + 1
    captures := s.captures ++ [captured]
    layers := s.layers.map fun _ layer => layer.onCapturedFrame P captured }

/-- `layers_[layer_id]` makes a layer that is not there. -/
def layerAt (s : VideoFrameMatcher Buffer) (layerId : Int) : VideoLayer Buffer :=
  s.layers[layerId]?.getD { registered := s.captures.length }

def onDecodedFrame (P : Pictures Buffer) (s : VideoFrameMatcher Buffer) (frame : Buffer) (layerId : Int)
    (renderTime atTime : Timestamp) : VideoFrameMatcher Buffer :=
  let (layer, pairs) := (s.layerAt layerId).onDecodedFrame P layerId frame renderTime atTime
  { s with layers := s.layers.insert layerId layer, handled := s.handled ++ pairs }

def step (P : Pictures Buffer) (s : VideoFrameMatcher Buffer) : Act Buffer → Option (VideoFrameMatcher Buffer)
  | .registerLayer layerId => some (s.registerLayer layerId)
  | .capturedFrame frame atTime => some (s.onCapturedFrame P frame atTime)
  | .decodedFrame frame layerId renderTime atTime =>
    some (s.onDecodedFrame P frame layerId renderTime atTime)

/-- The last task, of the destructor. -/
def finalize (s : VideoFrameMatcher Buffer) : VideoFrameMatcher Buffer :=
  { s with
    layers := s.layers.map fun layerId layer => (layer.finalize layerId).1
    handled := s.handled ++ s.layers.toList.flatMap fun e => (e.2.finalize e.1).2 }

end VideoFrameMatcher

namespace VideoLayer

variable {P : Pictures Buffer} {p : CapturedFrame Buffer → Bool} {layerId : Int}
  {layer : VideoLayer Buffer} {cs : List (CapturedFrame Buffer)}

@[simp] theorem framePair_capture (captured : CapturedFrame Buffer) :
    (layer.framePair layerId captured).capture = captured.capture := by
  rw [framePair]
  split <;> rfl

@[simp] theorem framePair_layerId (captured : CapturedFrame Buffer) :
    (layer.framePair layerId captured).layerId = layerId := by
  rw [framePair]
  split <;> rfl

@[simp] theorem compare_capture (frame : Buffer) (i : ℕ) (captured : CapturedFrame Buffer) :
    (compare P frame i captured).capture = captured.capture := by
  simp only [compare]
  split
  · rfl
  · split <;> rfl

@[simp] theorem copy_capture (captured : Capture Buffer) : (layer.copy P captured).capture = captured := by
  rw [copy]
  split
  · split <;> rfl
  · rfl

@[simp] theorem copy_matched (captured : Capture Buffer) : (layer.copy P captured).matched = false := by
  rw [copy]
  split
  · split <;> rfl
  · rfl

/-- What every match keeps, and the end of the loop keeps, the loop keeps. -/
theorem handleWhile_induction {I : VideoLayer Buffer → Prop}
    (hmatch : ∀ layer, ∀ c ∈ cs, p c → I layer → I (layer.handleMatch layerId c))
    (hend : ∀ layer rest, I layer → I { layer with capturedFrames := rest }) (h : I layer) :
    I (handleWhile p layerId layer cs).1 := by
  induction cs generalizing layer with
  | nil => exact hend layer [] h
  | cons c cs ih =>
    rw [handleWhile]
    split
    · next hp =>
      have hc := hmatch layer c List.mem_cons_self hp h
      exact ih (fun layer c' hc' => hmatch layer c' (List.mem_cons_of_mem c hc')) hc
    · exact hend layer (c :: cs) h

theorem handleWhile_capturedFrames (layer : VideoLayer Buffer) :
    (handleWhile p layerId layer cs).1.capturedFrames = cs.dropWhile p := by
  induction cs generalizing layer with
  | nil => rfl
  | cons c cs ih =>
    rw [handleWhile, List.dropWhile_cons]
    split
    · exact ih _
    · rfl

theorem handleWhile_reported (layer : VideoLayer Buffer) :
    (handleWhile p layerId layer cs).1.reported.map (·.pair) =
      layer.reported.map (·.pair) ++ (handleWhile p layerId layer cs).2 := by
  induction cs generalizing layer with
  | nil => simp [handleWhile]
  | cons c cs ih =>
    rw [handleWhile]
    split
    · simp [ih, handleMatch]
    · simp

theorem handleWhile_captures (layer : VideoLayer Buffer) :
    (handleWhile p layerId layer cs).2.map (·.capture) = (cs.takeWhile p).map (·.capture) := by
  induction cs generalizing layer with
  | nil => rfl
  | cons c cs ih =>
    rw [handleWhile, List.takeWhile_cons]
    split
    · simp [ih]
    · rfl

theorem handleWhile_layerId (layer : VideoLayer Buffer) :
    ∀ pair ∈ (handleWhile p layerId layer cs).2, pair.layerId = layerId := by
  induction cs generalizing layer with
  | nil => simp [handleWhile]
  | cons c cs ih =>
    rw [handleWhile]
    split
    · intro pair hpair
      rcases List.mem_cons.mp hpair with rfl | hpair
      · exact framePair_layerId c
      · exact ih _ pair hpair
    · simp

@[simp] theorem handleWhile_registered (layer : VideoLayer Buffer) :
    (handleWhile p layerId layer cs).1.registered = layer.registered :=
  handleWhile_induction (I := fun l => l.registered = layer.registered) (fun _ _ _ _ h => h)
    (fun _ _ h => h) rfl

/-- The captured frames that the layer has seen, reported or waiting. -/
def history (layer : VideoLayer Buffer) : List (Capture Buffer) :=
  layer.reported.map (·.pair.capture) ++ layer.capturedFrames.map (·.capture)

theorem history_handleWhile (layer : VideoLayer Buffer) (hcs : layer.capturedFrames = cs) :
    (handleWhile p layerId layer cs).1.history = layer.history := by
  have hreported : (handleWhile p layerId layer cs).1.reported.map (·.pair.capture) =
      layer.reported.map (·.pair.capture) ++ (cs.takeWhile p).map (·.capture) := by
    have hpairs : (handleWhile p layerId layer cs).1.reported.map (·.pair) =
        layer.reported.map (·.pair) ++ (handleWhile p layerId layer cs).2 := handleWhile_reported layer
    have h := congrArg (List.map (·.capture)) hpairs
    rw [List.map_append, handleWhile_captures, List.map_map, List.map_map] at h
    exact h
  rw [history, history, hreported, handleWhile_capturedFrames, hcs, List.append_assoc, ← List.map_append,
    List.takeWhile_append_dropWhile]

@[simp] theorem history_onCapturedFrame (captured : Capture Buffer) :
    (layer.onCapturedFrame P captured).history = layer.history ++ [captured] := by
  simp [history, onCapturedFrame]

@[simp] theorem history_addDecoded (frame : Buffer) (renderTime atTime : Timestamp) :
    (layer.addDecoded P frame renderTime atTime).history = layer.history := by
  simp [history, addDecoded, Function.comp_def]

@[simp] theorem history_onDecodedFrame (frame : Buffer) (renderTime atTime : Timestamp) :
    (layer.onDecodedFrame P layerId frame renderTime atTime).1.history = layer.history := by
  rw [onDecodedFrame, history_handleWhile _ rfl, history_addDecoded]

end VideoLayer

namespace VideoFrameMatcher

variable {P : Pictures Buffer} {s s' : VideoFrameMatcher Buffer} {layerId : Int}
  {layer : VideoLayer Buffer}

theorem getElem?_insert_layer (layers : Std.TreeMap Int (VideoLayer Buffer)) (layerId id : Int)
    (layer : VideoLayer Buffer) :
    (layers.insert layerId layer)[id]? = if layerId = id then some layer else layers[id]? := by
  rw [Std.TreeMap.getElem?_insert]
  simp only [Std.compare_eq_iff_eq]

/-- What the handlers have been given for a layer. -/
def handledFor (s : VideoFrameMatcher Buffer) (layerId : Int) : List (VideoFramePair Buffer) :=
  s.handled.filter (·.layerId = layerId)

theorem handledFor_onDecodedFrame (frame : Buffer) (id : Int) (renderTime atTime : Timestamp) :
    (s.onDecodedFrame P frame id renderTime atTime).handledFor layerId =
      s.handledFor layerId ++ if id = layerId then
        ((s.layerAt id).onDecodedFrame P id frame renderTime atTime).2 else [] := by
  have hall : ∀ pair ∈ ((s.layerAt id).onDecodedFrame P id frame renderTime atTime).2,
      pair.layerId = id := VideoLayer.handleWhile_layerId _
  rw [handledFor, onDecodedFrame, List.filter_append, handledFor]
  apply congrArg
  split
  · next h =>
    apply List.filter_eq_self.mpr
    intro pair hpair
    simpa [h] using hall pair hpair
  · next h =>
    apply List.filter_eq_nil_iff.mpr
    intro pair hpair
    simpa [hall pair hpair] using h

/-- What holds of a fresh layer, and is kept by its captures and its decodes, holds of the layer in
every state, beside the frames captured and the pairs handled so far. -/
theorem layer_invariant {I : List (Capture Buffer) → List (VideoFramePair Buffer) → VideoLayer Buffer → Prop}
    (hfresh : ∀ cs hs, I cs hs { registered := cs.length })
    (hcaptured : ∀ cs hs l c, I cs hs l → I (cs ++ [c]) hs (l.onCapturedFrame P c))
    (hdecoded : ∀ cs hs l frame renderTime atTime, I cs hs l →
      I cs (hs ++ (l.onDecodedFrame P layerId frame renderTime atTime).2)
        (l.onDecodedFrame P layerId frame renderTime atTime).1)
    {as : List (Act Buffer)} (hrun : Machine.run (step P) {} as = some s)
    (hlayer : s.layers[layerId]? = some layer) : I s.captures (s.handledFor layerId) layer := by
  have hstep : ∀ (s : VideoFrameMatcher Buffer) a s',
      (∀ l, s.layers[layerId]? = some l → I s.captures (s.handledFor layerId) l) → step P s a = some s' →
      ∀ l, s'.layers[layerId]? = some l → I s'.captures (s'.handledFor layerId) l := by
    intro s a s' h hs l hl
    cases a with
    | registerLayer id =>
      cases hs
      rw [registerLayer, getElem?_insert_layer] at hl
      split at hl
      · cases hl
        exact hfresh s.captures (s.handledFor layerId)
      · exact h l hl
    | capturedFrame frame atTime =>
      cases hs
      rw [onCapturedFrame, Std.TreeMap.getElem?_map] at hl
      obtain ⟨old, hold, rfl⟩ := Option.map_eq_some_iff.mp hl
      exact hcaptured s.captures (s.handledFor layerId) old _ (h old hold)
    | decodedFrame frame id renderTime atTime =>
      cases hs
      rw [handledFor_onDecodedFrame]
      rw [onDecodedFrame, getElem?_insert_layer] at hl
      split at hl
      · next hid =>
        subst hid
        cases hl
        have hold : I s.captures (s.handledFor id) (s.layerAt id) := by
          cases hat : s.layers[id]? with
          | some old => rw [layerAt, hat]; exact h old hat
          | none => rw [layerAt, hat]; exact hfresh s.captures (s.handledFor id)
        rw [if_pos rfl]
        exact hdecoded s.captures (s.handledFor id) _ frame renderTime atTime hold
      · next hid =>
        rw [if_neg hid, List.append_nil]
        exact h l hl
  have hinit : ∀ l, ({} : VideoFrameMatcher Buffer).layers[layerId]? = some l →
      I ({} : VideoFrameMatcher Buffer).captures (({} : VideoFrameMatcher Buffer).handledFor layerId) l := by
    intro l hl
    rw [show ({} : VideoFrameMatcher Buffer).layers[layerId]? = none from Std.TreeMap.getElem?_emptyc] at hl
    cases hl
  exact Machine.invariant (I := fun s => ∀ l, s.layers[layerId]? = some l →
    I s.captures (s.handledFor layerId) l) hstep hinit hrun layer hlayer

section Reported

variable {as : List (Act Buffer)}

theorem history_eq (hrun : Machine.run (step P) {} as = some s)
    (hlayer : s.layers[layerId]? = some layer) :
    layer.registered ≤ s.captures.length ∧ layer.history = s.captures.drop layer.registered := by
  apply layer_invariant (I := fun cs _ l => l.registered ≤ cs.length ∧ l.history = cs.drop l.registered)
    _ _ _ hrun hlayer
  · intro cs hs
    simp [VideoLayer.history]
  · rintro cs hs l c ⟨hle, h⟩
    refine ⟨by simp [VideoLayer.onCapturedFrame]; omega, ?_⟩
    rw [VideoLayer.history_onCapturedFrame, h]
    exact (List.drop_append_of_le_length hle).symm
  · rintro cs hs l frame renderTime atTime ⟨hle, h⟩
    have hreg : (l.onDecodedFrame P layerId frame renderTime atTime).1.registered = l.registered :=
      VideoLayer.handleWhile_registered _
    rw [VideoLayer.history_onDecodedFrame, hreg]
    exact ⟨hle, h⟩

theorem reported_suffix (hrun : Machine.run (step P) {} as = some s)
    (hlayer : s.layers[layerId]? = some layer) :
    layer.reported.map (·.pair) <:+ s.handledFor layerId := by
  apply layer_invariant (I := fun _ hs l => l.reported.map (·.pair) <:+ hs) _ _ _ hrun hlayer
  · intro cs hs
    exact List.nil_suffix
  · intro cs hs l c h
    exact h
  · intro cs hs l frame renderTime atTime h
    rw [VideoLayer.onDecodedFrame, VideoLayer.handleWhile_reported]
    obtain ⟨before, rfl⟩ := h
    exact ⟨before, (List.append_assoc ..).symm⟩

/-- A frame that waits at the front has not matched. -/
theorem head_not_matched (hrun : Machine.run (step P) {} as = some s)
    (hlayer : s.layers[layerId]? = some layer) : ∀ c ∈ layer.capturedFrames.head?, c.matched = false := by
  apply layer_invariant (I := fun _ _ l => ∀ c ∈ l.capturedFrames.head?, c.matched = false)
    _ _ _ hrun hlayer
  · intro cs hs c hc
    cases hc
  · intro cs hs l captured h c hc
    rw [VideoLayer.onCapturedFrame] at hc
    cases hcs : l.capturedFrames with
    | nil =>
      rw [hcs] at hc
      obtain rfl : l.copy P captured = c := by simpa using hc
      exact VideoLayer.copy_matched captured
    | cons c' rest =>
      rw [hcs] at hc
      exact h c (by rw [hcs]; exact hc)
  · intro cs hs l frame renderTime atTime h c hc
    rw [VideoLayer.onDecodedFrame, VideoLayer.handleWhile_capturedFrames] at hc
    have hnot := List.head?_dropWhile_not (fun c : CapturedFrame Buffer => c.matched)
      (l.addDecoded P frame renderTime atTime).capturedFrames
    rw [Option.mem_def.mp hc] at hnot
    exact hnot

theorem captures_ids (hrun : Machine.run (step P) {} as = some s) :
    s.nextCaptureId = s.captures.length + 1 ∧
      s.captures.map (·.id) = (List.range s.captures.length).map (· + 1) := by
  apply Machine.invariant (I := fun s : VideoFrameMatcher Buffer =>
    s.nextCaptureId = s.captures.length + 1 ∧
      s.captures.map (·.id) = (List.range s.captures.length).map (· + 1)) _ ⟨rfl, rfl⟩ hrun
  rintro s a s' ⟨hnext, hids⟩ hs
  cases a with
  | registerLayer id | decodedFrame frame id renderTime atTime =>
    cases hs
    exact ⟨hnext, hids⟩
  | capturedFrame frame atTime =>
    cases hs
    constructor
    · simp [onCapturedFrame, hnext]
    · simp [onCapturedFrame, hnext, hids, List.range_succ]

/-- What waits in a layer, if there is one. -/
def waiting (s : VideoFrameMatcher Buffer) (layerId : Int) : List (CapturedFrame Buffer) :=
  (s.layers[layerId]?.map (·.capturedFrames)).getD []

/-- The numbers of the frames handled for a layer, then of those that wait. -/
def captureIds (s : VideoFrameMatcher Buffer) (layerId : Int) : List ℕ :=
  (s.handledFor layerId).map (·.capture.id) ++ (s.waiting layerId).map (·.capture.id)

theorem captureIds_onDecodedFrame (frame : Buffer) (id : Int) (renderTime atTime : Timestamp) :
    (s.onDecodedFrame P frame id renderTime atTime).captureIds layerId = s.captureIds layerId := by
  rw [captureIds, captureIds, handledFor_onDecodedFrame, waiting, onDecodedFrame, getElem?_insert_layer]
  by_cases hid : id = layerId
  · subst hid
    have hwaiting : s.waiting id = (s.layerAt id).capturedFrames := by
      rw [waiting, layerAt]
      cases s.layers[id]? <;> rfl
    have hpairs : ((s.layerAt id).onDecodedFrame P id frame renderTime atTime).2.map (·.capture) =
        (((s.layerAt id).addDecoded P frame renderTime atTime).capturedFrames.takeWhile
          (·.matched)).map (·.capture) := VideoLayer.handleWhile_captures _
    have hcaps := congrArg (List.map (·.id)) hpairs
    rw [List.map_map, List.map_map] at hcaps
    have hsplit := congrArg (List.map (·.capture.id)) (List.takeWhile_append_dropWhile
      (p := fun c : CapturedFrame Buffer => c.matched)
      (l := ((s.layerAt id).addDecoded P frame renderTime atTime).capturedFrames))
    rw [List.map_append] at hsplit
    have hids : ((s.layerAt id).addDecoded P frame renderTime atTime).capturedFrames.map (·.capture.id) =
        (s.layerAt id).capturedFrames.map (·.capture.id) := by
      simp [VideoLayer.addDecoded, Function.comp_def]
    rw [if_pos rfl, if_pos rfl, hwaiting, ← hids, ← hsplit, List.map_append, List.append_assoc]
    apply congrArg
    rw [VideoLayer.onDecodedFrame, Option.map_some, Option.getD_some, VideoLayer.handleWhile_capturedFrames]
    exact congrArg (· ++ _) hcaps
  · rw [if_neg hid, if_neg hid, List.append_nil, waiting]

/-- Over all registrations of a layer, no frame is handled twice, and none out of order. -/
theorem captureIds_increasing (hrun : Machine.run (step P) {} as = some s) (layerId : Int) :
    (s.captureIds layerId).Pairwise (· < ·) ∧ ∀ i ∈ s.captureIds layerId, i < s.nextCaptureId := by
  apply Machine.invariant (I := fun s : VideoFrameMatcher Buffer =>
    (s.captureIds layerId).Pairwise (· < ·) ∧ ∀ i ∈ s.captureIds layerId, i < s.nextCaptureId) _ _ hrun
  · rintro s a s' ⟨hsorted, hlt⟩ hs
    cases a with
    | registerLayer id =>
      cases hs
      have hsub : ((s.registerLayer id).captureIds layerId).Sublist (s.captureIds layerId) := by
        rw [captureIds, captureIds, waiting, registerLayer, getElem?_insert_layer]
        split
        · exact (List.Sublist.refl _).append (List.nil_sublist _)
        · exact List.Sublist.refl _
      exact ⟨hsorted.sublist hsub, fun i hi => hlt i (hsub.subset hi)⟩
    | capturedFrame frame atTime =>
      cases hs
      have heq : (s.onCapturedFrame P frame atTime).captureIds layerId = s.captureIds layerId ∨
          (s.onCapturedFrame P frame atTime).captureIds layerId =
            s.captureIds layerId ++ [s.nextCaptureId] := by
        rw [captureIds, captureIds, waiting, waiting, onCapturedFrame, Std.TreeMap.getElem?_map]
        cases s.layers[layerId]? with
        | none => exact Or.inl rfl
        | some l =>
          right
          simp [VideoLayer.onCapturedFrame, handledFor]
      have hnext : (s.onCapturedFrame P frame atTime).nextCaptureId = s.nextCaptureId + 1 := rfl
      rw [hnext]
      rcases heq with heq | heq
      · rw [heq]
        exact ⟨hsorted, fun i hi => Nat.lt_succ_of_lt (hlt i hi)⟩
      · rw [heq]
        constructor
        · apply List.pairwise_append.mpr
          refine ⟨hsorted, List.pairwise_singleton _ _, fun i hi j hj => ?_⟩
          rw [List.mem_singleton.mp hj]
          exact hlt i hi
        · intro i hi
          rcases List.mem_append.mp hi with hi | hi
          · exact Nat.lt_succ_of_lt (hlt i hi)
          · rw [List.mem_singleton.mp hi]
            exact Nat.lt_succ_self _
    | decodedFrame frame id renderTime atTime =>
      cases hs
      rw [captureIds_onDecodedFrame]
      exact ⟨hsorted, hlt⟩
  · have hnone : ({} : VideoFrameMatcher Buffer).captureIds layerId = [] := by
      rw [captureIds, waiting,
        show ({} : VideoFrameMatcher Buffer).layers[layerId]? = none from Std.TreeMap.getElem?_emptyc]
      rfl
    rw [hnone]
    exact ⟨List.Pairwise.nil, fun i hi => by cases hi⟩

/-- Among the pairs of all layers, those of one layer. -/
theorem filter_finalize {entries : List (Int × VideoLayer Buffer)}
    (hdistinct : entries.Pairwise (fun a b => ¬ compare a.1 b.1 = .eq))
    (hmem : (layerId, layer) ∈ entries) :
    (entries.flatMap fun e => (e.2.finalize e.1).2).filter (·.layerId = layerId) =
      (layer.finalize layerId).2 := by
  have hall : ∀ e : Int × VideoLayer Buffer, (e.2.finalize e.1).2.filter (·.layerId = layerId) =
      if e.1 = layerId then (e.2.finalize e.1).2 else [] := by
    intro e
    have hids : ∀ pair ∈ (e.2.finalize e.1).2, pair.layerId = e.1 := VideoLayer.handleWhile_layerId _
    split
    · next h =>
      apply List.filter_eq_self.mpr
      intro pair hpair
      simpa [h] using hids pair hpair
    · next h =>
      apply List.filter_eq_nil_iff.mpr
      intro pair hpair
      simpa [hids pair hpair] using h
  induction entries with
  | nil => cases hmem
  | cons e entries ih =>
    obtain ⟨hfirst, hrest⟩ := List.pairwise_cons.mp hdistinct
    rw [List.flatMap_cons, List.filter_append, hall]
    rcases List.mem_cons.mp hmem with rfl | hmem
    · have hothers : (entries.flatMap fun e => (e.2.finalize e.1).2).filter (·.layerId = layerId) = [] := by
        rw [List.filter_flatMap]
        apply List.flatMap_eq_nil_iff.mpr
        intro e he
        rw [hall, if_neg]
        intro heq
        exact hfirst e he (by rw [heq]; exact Std.compare_self)
      rw [if_pos rfl, hothers, List.append_nil]
    · have hne : e.1 ≠ layerId := fun heq => hfirst _ hmem (by rw [heq]; exact Std.compare_self)
      rw [if_neg hne, List.nil_append, ih hrest hmem]

theorem handledFor_finalize (hlayer : s.layers[layerId]? = some layer) :
    s.finalize.handledFor layerId = s.handledFor layerId ++ (layer.finalize layerId).2 := by
  rw [handledFor, finalize, List.filter_append, handledFor,
    filter_finalize Std.TreeMap.distinct_keys_toList
      (Std.TreeMap.mem_toList_iff_getElem?_eq_some.mpr hlayer)]

/-- In every run, and for every layer: no frame is handled twice or out of order, over all
registrations of the layer; the frames captured since the last one are those handled since, then
those that wait, of which the first has not matched; and the destructor handles those that wait. -/
theorem captured_frames_reported_once (P : Pictures Buffer) (as : List (Act Buffer))
    (s : VideoFrameMatcher Buffer) (hrun : Machine.run (step P) {} as = some s) (layerId : Int)
    (layer : VideoLayer Buffer) (hlayer : s.layers[layerId]? = some layer) :
    s.captures.map (·.id) = (List.range s.captures.length).map (· + 1) ∧
      (s.captureIds layerId).Pairwise (· < ·) ∧
      layer.reported.map (·.pair) <:+ s.handledFor layerId ∧
      layer.reported.map (·.pair.capture) ++ layer.capturedFrames.map (·.capture) =
        s.captures.drop layer.registered ∧
      (∀ c ∈ layer.capturedFrames.head?, c.matched = false) ∧
      ∃ pairs, s.finalize.handledFor layerId = s.handledFor layerId ++ pairs ∧
        pairs.map (·.capture) = layer.capturedFrames.map (·.capture) ∧
        s.finalize.waiting layerId = [] := by
  refine ⟨(captures_ids hrun).2, (captureIds_increasing hrun layerId).1, reported_suffix hrun hlayer,
    (history_eq hrun hlayer).2, head_not_matched hrun hlayer, (layer.finalize layerId).2,
    handledFor_finalize hlayer, ?_, ?_⟩
  · rw [VideoLayer.finalize, VideoLayer.handleWhile_captures,
      List.takeWhile_eq_self_iff.mpr fun _ _ => rfl]
  · rw [waiting, finalize, Std.TreeMap.getElem?_map, hlayer, Option.map_some, Option.map_some,
      VideoLayer.finalize, VideoLayer.handleWhile_capturedFrames, Option.getD_some]
    exact List.dropWhile_eq_nil_iff.mpr fun _ _ => rfl

end Reported

/-- Buffers that are their own width, and look as different as their widths. -/
def widths : Pictures ℕ := ⟨id, fun a b => a - b + (b - a)⟩

/-- A capture, its decode and a wider decode: the capture is handled when the wider one comes. -/
def wideningSteps : List (Act ℕ) :=
  [.registerLayer 0, .capturedFrame 4 (.micros 1), .decodedFrame 3 0 (.micros 5) (.micros 4),
    .capturedFrame 4 (.micros 6), .decodedFrame 6 0 (.micros 9) (.micros 9)]

theorem wideningSteps_run : ∃ (s : VideoFrameMatcher ℕ) (layer : VideoLayer ℕ),
    Machine.run (step widths) {} wideningSteps = some s ∧ s.layers[(0 : Int)]? = some layer ∧
      layer.registered = 0 ∧ layer.reported.map (fun r => (r.pair.capture.id, r.pair.decodeId)) =
        [(1, 1), (2, 1)] :=
  ⟨_, _, rfl, rfl, rfl, rfl⟩

theorem widening_reports_once : ∃ (s : VideoFrameMatcher ℕ) (layer : VideoLayer ℕ),
    s.layers[(0 : Int)]? = some layer ∧ layer.reported.map (·.pair.capture.id) = [1, 2] ∧
      layer.reported.map (·.pair.capture) ++ layer.capturedFrames.map (·.capture) = s.captures := by
  obtain ⟨s, layer, hrun, hlayer, hregistered, hreported⟩ := wideningSteps_run
  have hall := captured_frames_reported_once widths wideningSteps s hrun 0 layer hlayer
  obtain ⟨-, -, -, hhistory, -⟩ := hall
  refine ⟨s, layer, hlayer, ?_, ?_⟩
  · simpa [Function.comp_def] using congrArg (List.map Prod.fst) hreported
  · rw [hhistory, hregistered, List.drop_zero]

end VideoFrameMatcher

end WebrtcGccNs3.Video
