import Mathlib.Order.Interval.Finset.Nat
import WebrtcGccNs3.Video.QualityStats

/-!
# The matcher and the analyzer together

The analyzer is a handler of the matcher. When a layer is registered before anything is
handled for it, as by the tap that decodes into it, its statistics over a whole session
are about the frames themselves: each decoded frame is rendered at most once, and a frame
is lost exactly when no decode on screen or after it was narrow enough.
-/
namespace WebrtcGccNs3.Video

variable {Buffer ρ : Type} {P : Pictures Buffer} {Q : Quality Buffer ρ}

/-- The decoded frames that have been reported. -/
def renderedIds (reported : List (Report Buffer)) : Finset ℕ :=
  ((reported.filter (·.pair.decoded.isSome)).map (·.pair.decodeId)).toFinset

theorem renderedIds_concat (reported : List (Report Buffer)) (r : Report Buffer) :
    renderedIds (reported ++ [r]) =
      renderedIds reported ∪ if r.pair.decoded.isSome then {r.pair.decodeId} else ∅ := by
  rw [renderedIds, List.filter_append, List.map_append, List.toFinset_append, ← renderedIds]
  cases hdecoded : r.pair.decoded <;> simp [hdecoded]

/-- Where repeats count up and only decoded frames have a number, the pairs that are rendered are
the first ones of their decodes. -/
theorem countP_isRendered {reported : List (Report Buffer)}
    (hid : ∀ r ∈ reported, r.pair.decoded = none ↔ r.pair.decodeId = 0)
    (hrepeated : ∀ i r, reported[i]? = some r → r.pair.decoded ≠ none →
      r.pair.repeated = timesReported (reported.take i) r.pair.decodeId) :
    (reported.map (·.pair)).countP IsRendered = (renderedIds reported).card := by
  induction reported using List.reverseRecOn with
  | nil => rfl
  | append_singleton reported r ih =>
    have hinit := ih (fun r' hr' => hid r' (List.mem_append_left _ hr')) (by
      intro i r' hr' hdecoded
      obtain ⟨hlt, -⟩ := List.getElem?_eq_some_iff.mp hr'
      have h := hrepeated i r' (by rwa [List.getElem?_append_left hlt]) hdecoded
      rwa [List.take_append_of_le_length hlt.le] at h)
    rw [List.map_append, List.countP_append, hinit, renderedIds_concat]
    cases hdecoded : r.pair.decoded with
    | none => simp [IsRendered, hdecoded]
    | some decoded =>
      have htimes := hrepeated reported.length r (by simp) (by rw [hdecoded]; simp)
      rw [List.take_left] at htimes
      by_cases hmem : r.pair.decodeId ∈ renderedIds reported
      · have hpos : 0 < timesReported reported r.pair.decodeId := by
          obtain ⟨r', hr', heq⟩ := List.mem_map.mp (List.mem_toFinset.mp hmem)
          apply List.countP_pos_iff.mpr
          exact ⟨r', (List.mem_filter.mp hr').1, by simpa using heq⟩
        have hnot : r.pair.repeated ≠ 0 := by omega
        simp [IsRendered, hdecoded, hnot, hmem]
      · have hzero : r.pair.repeated = 0 := by
          rw [htimes]
          apply List.countP_eq_zero.mpr
          intro r' hr' heq
          have heq' : r'.pair.decodeId = r.pair.decodeId := by simpa using heq
          apply hmem
          apply List.mem_toFinset.mpr
          refine List.mem_map.mpr ⟨r', List.mem_filter.mpr ⟨hr', ?_⟩, heq'⟩
          have hr0 : r.pair.decodeId ≠ 0 := by
            intro h0
            have := (hid r (by simp)).mpr h0
            rw [hdecoded] at this
            cases this
          rw [Option.isSome_iff_ne_none]
          intro hnone
          exact hr0 (heq' ▸ (hid r' (List.mem_append_left _ hr')).mp hnone)
        simp [IsRendered, hdecoded, hzero, hmem]

namespace VideoFrameMatcher

variable {s : VideoFrameMatcher Buffer} {layerId : Int} {layer : VideoLayer Buffer}
  {as : List (Act Buffer)}

/-- The layer is not registered once something has been handled for it. -/
def RegistersFirst (layerId : Int) (s : VideoFrameMatcher Buffer) : Act Buffer → Prop
  | .registerLayer id => id = layerId → s.handledFor layerId = []
  | _ => True

theorem handledFor_eq_reported (hrun : Machine.run (step P) {} as = some s)
    (hfirst : Machine.AllSteps (step P) (RegistersFirst layerId) {} as) :
    s.handledFor layerId = (s.layers[layerId]?.map fun l => l.reported.map (·.pair)).getD [] := by
  apply Machine.invariant_of_allSteps (I := fun s : VideoFrameMatcher Buffer =>
    s.handledFor layerId = (s.layers[layerId]?.map fun l => l.reported.map (·.pair)).getD [])
    _ _ hfirst hrun
  · intro s a s' hI hC hs
    cases a with
    | registerLayer id =>
      cases hs
      have hsame : (s.registerLayer id).handledFor layerId = s.handledFor layerId := rfl
      rw [hsame, registerLayer, getElem?_insert_layer]
      split
      · next hid => exact hC hid
      · exact hI
    | capturedFrame frame atTime =>
      cases hs
      have hsame : (s.onCapturedFrame P frame atTime).handledFor layerId = s.handledFor layerId := rfl
      rw [hsame, hI, onCapturedFrame, Std.TreeMap.getElem?_map]
      cases s.layers[layerId]? <;> rfl
    | decodedFrame frame id renderTime atTime =>
      cases hs
      rw [handledFor_onDecodedFrame, onDecodedFrame, getElem?_insert_layer]
      by_cases hid : id = layerId
      · subst hid
        have hold : s.handledFor id = (s.layerAt id).reported.map (·.pair) := by
          rw [hI, layerAt]
          cases s.layers[id]? <;> rfl
        rw [if_pos rfl, if_pos rfl, Option.map_some, Option.getD_some, hold, VideoLayer.onDecodedFrame,
          VideoLayer.handleWhile_reported]
        rfl
      · rw [if_neg hid, if_neg hid, List.append_nil]
        exact hI
  · rw [show ({} : VideoFrameMatcher Buffer).layers[layerId]? = none from Std.TreeMap.getElem?_emptyc]
    rfl

/-- The reports of a layer whose decodes it names. -/
theorem names_iff {layer : VideoLayer Buffer} (h : Recorded P layer) {r : Report Buffer}
    (hr : r ∈ layer.reported) : (r.pair.decoded = none ↔ r.pair.decodeId = 0) ∧
      (r.pair.decoded = none ↔
        bestMatch P (layer.frames.take r.til) r.since r.pair.capture.frame = none) := by
  obtain ⟨-, -, hnames⟩ := h.best r hr
  cases hbest : bestMatch P (layer.frames.take r.til) r.since r.pair.capture.frame with
  | none =>
    rw [hbest] at hnames
    simp [hnames.1, hnames.2]
  | some d =>
    rw [hbest] at hnames
    simp [hnames.1, hnames.2]

theorem renderedIds_card_le {layer : VideoLayer Buffer} (h : Recorded P layer) :
    (renderedIds layer.reported).card ≤ layer.decoded.length := by
  have hsub : renderedIds layer.reported ⊆ Finset.Icc 1 layer.decoded.length := by
    intro i hi
    obtain ⟨r, hr, rfl⟩ := List.mem_map.mp (List.mem_toFinset.mp hi)
    obtain ⟨hr, hsome⟩ := List.mem_filter.mp hr
    have hne : r.pair.decodeId ≠ 0 := fun h0 => by
      rw [(names_iff h hr).1.mpr h0] at hsome
      cases hsome
    exact Finset.mem_Icc.mpr ⟨Nat.one_le_iff_ne_zero.mpr hne, h.decodeId_le hr⟩
  calc (renderedIds layer.reported).card ≤ (Finset.Icc 1 layer.decoded.length).card :=
        Finset.card_le_card hsub
    _ = layer.decoded.length := by rw [Nat.card_Icc, Nat.add_sub_cancel]

/-- A whole session, for a layer that is registered first: every frame captured since is counted
once; the rendered ones are the decodes that were reported, each once, and no more than were decoded;
the lost ones are those for which no decode on screen or after them was narrow enough. -/
theorem session_statistics (P : Pictures Buffer) (Q : Quality Buffer ρ) (as : List (Act Buffer))
    (s : VideoFrameMatcher Buffer) (hrun : Machine.run (step P) {} as = some s) (layerId : Int)
    (layer : VideoLayer Buffer) (hlayer : s.layers[layerId]? = some layer)
    (hfirst : Machine.AllSteps (step P) (RegistersFirst layerId) {} as)
    (q : VideoQualityAnalyzer ρ) (hq : Machine.run (VideoQualityAnalyzer.step Q) {}
      (s.finalize.handled.map .handleFramePair) = some q) :
    (q.layerAt layerId).counts.captured = s.captures.length - layer.registered ∧
      (q.layerAt layerId).counts.rendered = (renderedIds (layer.finalize layerId).1.reported).card ∧
      (q.layerAt layerId).counts.rendered ≤ layer.decoded.length ∧
      (q.layerAt layerId).counts.lost = (layer.finalize layerId).1.reported.countP fun r =>
        (bestMatch P (layer.frames.take r.til) r.since r.pair.capture.frame).isNone := by
  obtain ⟨hrecorded, hscored, -⟩ := paired_of_run hrun hlayer
  obtain ⟨hfinal, hframes⟩ := recorded_handleWhile hrecorded hscored (fun _ => true) layerId
  rw [← VideoLayer.finalize] at hfinal hframes
  have hlength : (layer.finalize layerId).1.decoded.length = layer.decoded.length := by
    rw [← VideoLayer.length_frames, hframes, VideoLayer.length_frames]
  -- what the analyzer is given for the layer
  have hpairs : (VideoQualityAnalyzer.samples (s.finalize.handled.map
      VideoQualityAnalyzer.Act.handleFramePair)).filter (·.layerId = layerId) =
      (layer.finalize layerId).1.reported.map (·.pair) := by
    have hsamples : VideoQualityAnalyzer.samples (s.finalize.handled.map
        VideoQualityAnalyzer.Act.handleFramePair) = s.finalize.handled := by
      simp [VideoQualityAnalyzer.samples, List.filterMap_map]
    have hreported := handledFor_eq_reported hrun hfirst
    rw [hlayer, Option.map_some, Option.getD_some] at hreported
    rw [hsamples, VideoLayer.finalize, VideoLayer.handleWhile_reported, ← hreported]
    exact handledFor_finalize hlayer
  have haccounts := VideoQualityAnalyzer.accounts_layerAt hq layerId
  rw [hpairs] at haccounts
  have hrendered : (q.layerAt layerId).counts.rendered =
      (renderedIds (layer.finalize layerId).1.reported).card :=
    haccounts.rendered.trans (countP_isRendered (fun r hr => (names_iff hfinal hr).1) hfinal.repeated)
  refine ⟨?_, hrendered, ?_, ?_⟩
  · have hhistory := congrArg List.length (history_eq hrun hlayer).2
    have hsame : (layer.finalize layerId).1.history = layer.history :=
      VideoLayer.history_handleWhile layer rfl
    have hkept := congrArg List.length hsame
    have hnone : (layer.finalize layerId).1.capturedFrames = [] := by
      rw [VideoLayer.finalize, VideoLayer.handleWhile_capturedFrames]
      exact List.dropWhile_eq_nil_iff.mpr fun _ _ => rfl
    rw [VideoLayer.history, hnone, hhistory, List.length_drop] at hkept
    rw [haccounts.captured, List.length_map, ← hkept]
    simp
  · rw [hrendered, ← hlength]
    exact renderedIds_card_le hfinal
  · rw [haccounts.lost, List.countP_map]
    apply List.countP_congr
    intro r hr
    have hiff := (names_iff hfinal hr).2
    rw [hframes] at hiff
    simp [IsLost, hiff]

/-- Of two captured frames, one is rendered with the only decode that fits, and one repeats it. -/
theorem widening_session : ∃ (s : VideoFrameMatcher ℕ) (layer : VideoLayer ℕ) (q : VideoQualityAnalyzer ℕ),
    Machine.run (step widths) {} wideningSteps = some s ∧ s.layers[(0 : Int)]? = some layer ∧
      (q.layerAt 0).counts.captured = 2 ∧ (q.layerAt 0).counts.rendered ≤ 2 := by
  have hrun : ∃ (s : VideoFrameMatcher ℕ) (layer : VideoLayer ℕ) (q : VideoQualityAnalyzer ℕ),
      Machine.run (step widths) {} wideningSteps = some s ∧ s.layers[(0 : Int)]? = some layer ∧
        Machine.run (VideoQualityAnalyzer.step widthQuality) {}
          (s.finalize.handled.map .handleFramePair) = some q ∧
        s.captures.length = 2 ∧ layer.registered = 0 ∧ layer.decoded.length = 2 :=
    ⟨_, _, _, rfl, rfl, rfl, rfl, rfl, rfl⟩
  obtain ⟨s, layer, q, hrun, hlayer, hq, hcaptures, hregistered, hdecoded⟩ := hrun
  have hfirst : Machine.AllSteps (step widths) (RegistersFirst 0) {} wideningSteps := by
    refine Machine.allSteps_cons.mpr ⟨fun _ => rfl, fun t _ => ?_⟩
    apply Machine.allSteps_of_forall_mem
    intro a ha t
    simp only [List.mem_cons, List.not_mem_nil, or_false] at ha
    rcases ha with rfl | rfl | rfl | rfl <;> trivial
  obtain ⟨hcaptured, -, hrendered, -⟩ :=
    session_statistics widths widthQuality wideningSteps s hrun 0 layer hlayer hfirst q hq
  rw [hcaptures, hregistered] at hcaptured
  rw [hdecoded] at hrendered
  exact ⟨s, layer, q, hrun, hlayer, hcaptured, hrendered⟩

end VideoFrameMatcher

end WebrtcGccNs3.Video
