import Mathlib.Data.Finset.Card
import WebrtcGccNs3.Lib.MapSum
import WebrtcGccNs3.Video.BestMatch

/-!
# VideoQualityAnalyzer

A handler of the matcher's pairs. Each layer counts what was captured, lost, frozen and
rendered, and the whole is summed on demand and kept until the next pair. A
`SampleStats` is the list of its samples, and the mean of the render intervals and the
PSNR come from libwebrtc. The counters are `int`s, enough for fewer than 2^31 pairs. The
log of the pairs is left out.
-/
namespace WebrtcGccNs3.Video

open Sim (Timestamp)

/-- `Timestamp - Timestamp`; an infinity on either side absorbs the other. -/
def difference : Timestamp → Timestamp → Timestamp
  | .micros a, .micros b => .micros (a - b)
  | .plusInfinity, _ | .micros _, .minusInfinity => .plusInfinity
  | .minusInfinity, .minusInfinity => .plusInfinity
  | .minusInfinity, _ | .micros _, .plusInfinity => .minusInfinity

/-- What libwebrtc says of buffers and of render times. -/
structure Quality (Buffer ρ : Type) where
  width : Buffer → ℕ
  height : Buffer → ℕ
  psnr : Buffer → Buffer → ρ
  /-- `EventRateCounter::interval().Mean()` in microseconds. -/
  meanInterval : List Timestamp → Int

structure VideoFramesStats where
  count : ℕ := 0
  pixels : List ℕ := []
  resolution : List ℕ := []
  frames : List Timestamp := []
  deriving DecidableEq

structure VideoQualityStats (ρ : Type) where
  lostCount : ℕ := 0
  freezeCount : ℕ := 0
  capture : VideoFramesStats := {}
  render : VideoFramesStats := {}
  captureToDecodedDelay : List Timestamp := []
  endToEndDelay : List Timestamp := []
  psnr : List ρ := []
  psnrWithFreeze : List ρ := []
  skippedBetweenRendered : List ℕ := []
  freezeDuration : List Timestamp := []
  timeBetweenFreezes : List Timestamp := []

variable {Buffer ρ : Type}

def VideoFramesStats.addFrameInfo (Q : Quality Buffer ρ) (stats : VideoFramesStats) (frame : Buffer)
    (atTime : Timestamp) : VideoFramesStats where
  count := stats.count + 1
  pixels := stats.pixels ++ [Q.width frame * Q.height frame]
  resolution := stats.resolution ++ [max (Q.width frame) (Q.height frame)]
  frames := stats.frames ++ [atTime]

def VideoFramesStats.addStats (stats other : VideoFramesStats) : VideoFramesStats where
  count := stats.count + other.count
  pixels := stats.pixels ++ other.pixels
  resolution := stats.resolution ++ other.resolution
  frames := stats.frames ++ other.frames

def VideoQualityStats.addStats (stats other : VideoQualityStats ρ) : VideoQualityStats ρ where
  lostCount := stats.lostCount + other.lostCount
  freezeCount := stats.freezeCount + other.freezeCount
  capture := stats.capture.addStats other.capture
  render := stats.render.addStats other.render
  captureToDecodedDelay := stats.captureToDecodedDelay ++ other.captureToDecodedDelay
  endToEndDelay := stats.endToEndDelay ++ other.endToEndDelay
  psnr := stats.psnr ++ other.psnr
  psnrWithFreeze := stats.psnrWithFreeze ++ other.psnrWithFreeze
  skippedBetweenRendered := stats.skippedBetweenRendered ++ other.skippedBetweenRendered
  freezeDuration := stats.freezeDuration ++ other.freezeDuration
  timeBetweenFreezes := stats.timeBetweenFreezes ++ other.timeBetweenFreezes

structure VideoLayerAnalyzer (ρ : Type) where
  stats : VideoQualityStats ρ := {}
  lastRenderTime : Timestamp := .minusInfinity
  lastFreezeTime : Timestamp := .minusInfinity
  skipCount : ℕ := 0

namespace VideoLayerAnalyzer

def handleCapturedFrame (Q : Quality Buffer ρ) (analyzer : VideoLayerAnalyzer ρ)
    (sample : VideoFramePair Buffer) : VideoLayerAnalyzer ρ :=
  { analyzer with
    stats := { analyzer.stats with
      capture := analyzer.stats.capture.addFrameInfo Q sample.capture.frame sample.capture.captureTime }
    lastFreezeTime := match analyzer.lastFreezeTime with
      | .micros us => .micros us
      | _ => sample.capture.captureTime }

/-- A pause of more than 150 ms over the mean interval, or three times the mean. -/
def isFreeze (mean : Int) (interval : Timestamp) : Bool :=
  .micros (150000 + mean) < interval || .micros (3 * mean) < interval

/-- What was on screen last ends, in a freeze if the pause was long. -/
def noteFreeze (Q : Quality Buffer ρ) (analyzer : VideoLayerAnalyzer ρ) (renderTime : Timestamp) :
    VideoLayerAnalyzer ρ :=
  match analyzer.lastRenderTime with
  | .micros last =>
    let interval := difference renderTime (.micros last)
    if isFreeze (Q.meanInterval analyzer.stats.render.frames) interval then
      { analyzer with
        stats := { analyzer.stats with
          freezeDuration := analyzer.stats.freezeDuration ++ [interval]
          timeBetweenFreezes := analyzer.stats.timeBetweenFreezes ++
            [difference (.micros last) analyzer.lastFreezeTime] }
        lastFreezeTime := renderTime }
    else analyzer
  | _ => analyzer

def handleRenderedFrame (Q : Quality Buffer ρ) (analyzer : VideoLayerAnalyzer ρ)
    (sample : VideoFramePair Buffer) (decoded : Buffer) : VideoLayerAnalyzer ρ :=
  let stats := analyzer.stats
  let analyzer := { analyzer with
    stats := { stats with
      captureToDecodedDelay := stats.captureToDecodedDelay ++
        [difference sample.decodedTime sample.capture.captureTime]
      endToEndDelay := stats.endToEndDelay ++ [difference sample.renderTime sample.capture.captureTime]
      render := stats.render.addFrameInfo Q decoded sample.renderTime
      skippedBetweenRendered := stats.skippedBetweenRendered ++ [analyzer.skipCount] }
    skipCount := 0 }
  { analyzer.noteFreeze Q sample.renderTime with lastRenderTime := sample.renderTime }

def handleFramePair (Q : Quality Buffer ρ) (analyzer : VideoLayerAnalyzer ρ)
    (sample : VideoFramePair Buffer) : VideoLayerAnalyzer ρ :=
  let analyzer := analyzer.handleCapturedFrame Q sample
  match sample.decoded with
  | none =>
    { analyzer with
      stats := { analyzer.stats with lostCount := analyzer.stats.lostCount + 1 }
      skipCount := analyzer.skipCount + 1 }
  | some decoded =>
    let psnr := Q.psnr sample.capture.frame decoded
    let stats := { analyzer.stats with psnrWithFreeze := analyzer.stats.psnrWithFreeze ++ [psnr] }
    if sample.repeated ≠ 0 then
      { analyzer with
        stats := { stats with freezeCount := stats.freezeCount + 1 }
        skipCount := analyzer.skipCount + 1 }
    else
      { analyzer with stats := { stats with psnr := stats.psnr ++ [psnr] } }.handleRenderedFrame Q
        sample decoded

end VideoLayerAnalyzer

structure VideoQualityAnalyzer (ρ : Type) where
  layerAnalyzers : Std.TreeMap Int (VideoLayerAnalyzer ρ) := ∅
  cached : Option (VideoQualityStats ρ) := none

namespace VideoQualityAnalyzer

def handleFramePair (Q : Quality Buffer ρ) (analyzer : VideoQualityAnalyzer ρ)
    (sample : VideoFramePair Buffer) : VideoQualityAnalyzer ρ where
  layerAnalyzers := analyzer.layerAnalyzers.insert sample.layerId
    ((analyzer.layerAnalyzers[sample.layerId]?.getD {}).handleFramePair Q sample)
  cached := none

/-- The sum over the layers. -/
def total (layers : Std.TreeMap Int (VideoLayerAnalyzer ρ)) : VideoQualityStats ρ :=
  layers.toList.foldl (fun sum layer => sum.addStats layer.2.stats) {}

def stats (analyzer : VideoQualityAnalyzer ρ) : VideoQualityAnalyzer ρ × VideoQualityStats ρ :=
  match analyzer.cached with
  | some cached => (analyzer, cached)
  | none =>
    ({ analyzer with cached := some (total analyzer.layerAnalyzers) }, total analyzer.layerAnalyzers)

inductive Act (Buffer : Type) where
  | handleFramePair (sample : VideoFramePair Buffer)
  | stats

def step (Q : Quality Buffer ρ) (s : VideoQualityAnalyzer ρ) : Act Buffer → Option (VideoQualityAnalyzer ρ)
  | .handleFramePair sample => some (s.handleFramePair Q sample)
  | .stats => some s.stats.1

end VideoQualityAnalyzer

/-- The counters of a layer, without its samples. -/
structure Counts where
  captured : ℕ := 0
  lost : ℕ := 0
  frozen : ℕ := 0
  rendered : ℕ := 0
  skipped : List ℕ := []
  skipCount : ℕ := 0

/-- What a pair adds. -/
def Counts.next (c : Counts) (pair : VideoFramePair Buffer) : Counts :=
  match pair.decoded with
  | none => { c with captured := c.captured + 1, lost := c.lost + 1, skipCount := c.skipCount + 1 }
  | some _ =>
    if pair.repeated ≠ 0 then
      { c with captured := c.captured + 1, frozen := c.frozen + 1, skipCount := c.skipCount + 1 }
    else
      { c with
        captured := c.captured + 1, rendered := c.rendered + 1
        skipped := c.skipped ++ [c.skipCount], skipCount := 0 }

def IsLost (pair : VideoFramePair Buffer) : Bool := pair.decoded.isNone
def IsFrozen (pair : VideoFramePair Buffer) : Bool := pair.decoded.isSome && pair.repeated != 0
def IsRendered (pair : VideoFramePair Buffer) : Bool := pair.decoded.isSome && pair.repeated == 0

/-- The counters, from the pairs that were counted. -/
structure Accounts (pairs : List (VideoFramePair Buffer)) (c : Counts) : Prop where
  captured : c.captured = pairs.length
  lost : c.lost = pairs.countP IsLost
  frozen : c.frozen = pairs.countP IsFrozen
  rendered : c.rendered = pairs.countP IsRendered
  samples : c.skipped.length = c.rendered
  skipped : c.skipped.sum + c.skipCount = c.lost + c.frozen

theorem accounts_next {pairs : List (VideoFramePair Buffer)} {c : Counts} (h : Accounts pairs c)
    (pair : VideoFramePair Buffer) : Accounts (pairs ++ [pair]) (c.next pair) := by
  obtain ⟨hcaptured, hlost, hfrozen, hrendered, hsamples, hskipped⟩ := h
  have hcount : ∀ p : VideoFramePair Buffer → Bool,
      (pairs ++ [pair]).countP p = pairs.countP p + if p pair then 1 else 0 := by
    intro p
    rw [List.countP_append, List.countP_singleton]
  have hlength : (pairs ++ [pair]).length = pairs.length + 1 := by simp
  cases hdecoded : pair.decoded with
  | none =>
    rw [Counts.next, hdecoded]
    constructor <;> simp [hcount, IsLost, IsFrozen, IsRendered, hdecoded] <;> omega
  | some decoded =>
    by_cases hrepeated : pair.repeated ≠ 0
    · have hnext : c.next pair =
          { c with captured := c.captured + 1, frozen := c.frozen + 1, skipCount := c.skipCount + 1 } := by
        rw [Counts.next, hdecoded]
        exact if_pos hrepeated
      rw [hnext]
      constructor <;> simp [hcount, IsLost, IsFrozen, IsRendered, hdecoded, hrepeated] <;> omega
    · have hnext : c.next pair = { c with
          captured := c.captured + 1, rendered := c.rendered + 1
          skipped := c.skipped ++ [c.skipCount], skipCount := 0 } := by
        rw [Counts.next, hdecoded]
        exact if_neg hrepeated
      have hzero : pair.repeated = 0 := by omega
      rw [hnext]
      constructor <;> simp [hcount, IsLost, IsFrozen, IsRendered, hdecoded, hzero] <;> omega

theorem accounts_foldl (pairs : List (VideoFramePair Buffer)) :
    Accounts pairs (pairs.foldl Counts.next {}) := by
  induction pairs using List.reverseRecOn with
  | nil => exact ⟨rfl, rfl, rfl, rfl, rfl, rfl⟩
  | append_singleton pairs pair ih =>
    rw [List.foldl_append]
    exact accounts_next ih pair

namespace VideoLayerAnalyzer

variable {Q : Quality Buffer ρ} {analyzer : VideoLayerAnalyzer ρ}

def counts (analyzer : VideoLayerAnalyzer ρ) : Counts where
  captured := analyzer.stats.capture.count
  lost := analyzer.stats.lostCount
  frozen := analyzer.stats.freezeCount
  rendered := analyzer.stats.render.count
  skipped := analyzer.stats.skippedBetweenRendered
  skipCount := analyzer.skipCount

theorem counts_noteFreeze (renderTime : Timestamp) :
    (analyzer.noteFreeze Q renderTime).counts = analyzer.counts := by
  rw [noteFreeze]
  split
  · simp only
    split <;> rfl
  · rfl

/-- The analyzer's counters go as the counts do. -/
theorem counts_handleFramePair (sample : VideoFramePair Buffer) :
    (analyzer.handleFramePair Q sample).counts = analyzer.counts.next sample := by
  rw [handleFramePair, Counts.next]
  cases sample.decoded with
  | none => rfl
  | some decoded =>
    simp only
    split
    · rfl
    · exact counts_noteFreeze sample.renderTime

end VideoLayerAnalyzer

namespace VideoQualityAnalyzer

variable {Q : Quality Buffer ρ} {s s' : VideoQualityAnalyzer ρ}

/-- The pairs that were handled. -/
def samples (as : List (Act Buffer)) : List (VideoFramePair Buffer) :=
  as.filterMap fun
    | .handleFramePair sample => some sample
    | .stats => none

/-- The analyzer of a layer, fresh if the layer has had no pair. -/
def layerAt (s : VideoQualityAnalyzer ρ) (id : Int) : VideoLayerAnalyzer ρ :=
  s.layerAnalyzers[id]?.getD {}

/-- A number that `AddStats` adds up, summed over the layers. -/
theorem total_eq_sum (f : VideoQualityStats ρ → ℕ) (hzero : f {} = 0)
    (hadd : ∀ a b, f (a.addStats b) = f a + f b) (layers : Std.TreeMap Int (VideoLayerAnalyzer ρ)) :
    f (total layers) = MapSum.sum (fun layer : VideoLayerAnalyzer ρ => f layer.stats) layers := by
  have hfold : ∀ (entries : List (Int × VideoLayerAnalyzer ρ)) (sum : VideoQualityStats ρ),
      f (entries.foldl (fun sum layer => sum.addStats layer.2.stats) sum) =
        f sum + (entries.map fun e => f e.2.stats).sum := by
    intro entries
    induction entries with
    | nil => simp
    | cons e entries ih =>
      intro sum
      rw [List.foldl_cons, ih, hadd, List.map_cons, List.sum_cons, Nat.add_assoc]
  rw [total, hfold, hzero, Nat.zero_add, MapSum.sum]

/-- A counter that goes up by one for the pairs of a kind counts them, over all layers. -/
theorem total_countP (f : VideoQualityStats ρ → ℕ) (p : VideoFramePair Buffer → Bool)
    (hzero : f {} = 0) (hadd : ∀ a b, f (a.addStats b) = f a + f b)
    (hpair : ∀ (a : VideoLayerAnalyzer ρ) (sample : VideoFramePair Buffer),
      f (a.handleFramePair Q sample).stats = f a.stats + if p sample then 1 else 0)
    {as : List (Act Buffer)} (hrun : Machine.run (step Q) {} as = some s) :
    f (total s.layerAnalyzers) = (samples as).countP p := by
  rw [total_eq_sum f hzero hadd]
  apply Machine.invariant_of_history (I := fun as (s : VideoQualityAnalyzer ρ) =>
    MapSum.sum (fun layer : VideoLayerAnalyzer ρ => f layer.stats) s.layerAnalyzers =
      (samples as).countP p) _ _ hrun
  · exact MapSum.sum_empty _
  · intro js a t t' _ _ hI hs
    cases a with
    | handleFramePair sample =>
      cases hs
      have hinsert := MapSum.sum_insert (fun layer : VideoLayerAnalyzer ρ => f layer.stats)
        t.layerAnalyzers sample.layerId ((t.layerAt sample.layerId).handleFramePair Q sample)
      have hold : (t.layerAnalyzers[sample.layerId]?.map fun layer => f layer.stats).getD 0 =
          f (t.layerAt sample.layerId).stats := by
        rw [layerAt]
        cases t.layerAnalyzers[sample.layerId]? with
        | none => exact hzero.symm
        | some layer => rfl
      rw [hold, hpair, hI] at hinsert
      have hsamples : samples (js ++ [.handleFramePair sample]) = samples js ++ [sample] := by
        simp [samples]
      rw [hsamples, List.countP_append, List.countP_singleton]
      show MapSum.sum _ (t.layerAnalyzers.insert sample.layerId
        ((t.layerAt sample.layerId).handleFramePair Q sample)) = _
      omega
    | stats =>
      cases hs
      have hsamples : samples (js ++ [(Act.stats : Act Buffer)]) = samples js := by simp [samples]
      have hlayers : t.stats.1.layerAnalyzers = t.layerAnalyzers := by
        rw [VideoQualityAnalyzer.stats]
        split <;> rfl
      rw [hsamples, hlayers]
      exact hI

/-- The sum that is kept is the sum of the layers as they are. -/
theorem cached_total {as : List (Act Buffer)} (hrun : Machine.run (step Q) {} as = some s) :
    s.stats.2 = total s.layerAnalyzers := by
  have hI : ∀ c, s.cached = some c → c = total s.layerAnalyzers := by
    apply Machine.invariant (I := fun s : VideoQualityAnalyzer ρ =>
      ∀ c, s.cached = some c → c = total s.layerAnalyzers) _ _ hrun
    · intro s a s' hI hs c hc
      cases a with
      | handleFramePair sample =>
        cases hs
        cases hc
      | stats =>
        cases hs
        rw [VideoQualityAnalyzer.stats] at hc ⊢
        cases hcached : s.cached with
        | none =>
          simp only [hcached] at hc ⊢
          exact (Option.some.inj hc).symm
        | some c' =>
          simp only [hcached] at hc ⊢
          cases hc
          exact hI c hcached
    · intro c hc
      cases hc
  rw [VideoQualityAnalyzer.stats]
  cases hcached : s.cached with
  | none => rfl
  | some c => exact hI c hcached

/-- The layer's counters are those of its pairs. -/
theorem counts_layerAt {as : List (Act Buffer)} (hrun : Machine.run (step Q) {} as = some s) (id : Int) :
    (s.layerAt id).counts = ((samples as).filter (·.layerId = id)).foldl Counts.next {} := by
  apply Machine.invariant_of_history (I := fun as (s : VideoQualityAnalyzer ρ) =>
    (s.layerAt id).counts = ((samples as).filter (·.layerId = id)).foldl Counts.next {}) _ _ hrun
  · rw [layerAt, show ({} : VideoQualityAnalyzer ρ).layerAnalyzers[id]? = none from
      Std.TreeMap.getElem?_emptyc]
    rfl
  · intro js a t t' _ _ hI hs
    cases a with
    | handleFramePair sample =>
      cases hs
      have hsamples : samples (js ++ [.handleFramePair sample]) = samples js ++ [sample] := by
        simp [samples]
      rw [hsamples, List.filter_append, List.foldl_append, ← hI, layerAt, handleFramePair,
        Std.TreeMap.getElem?_insert]
      by_cases hid : sample.layerId = id
      · subst hid
        rw [if_pos Std.compare_self, Option.getD_some, VideoLayerAnalyzer.counts_handleFramePair]
        simp [layerAt]
      · rw [if_neg (by simpa using hid)]
        simp [layerAt, hid]
    | stats =>
      cases hs
      have hsamples : samples (js ++ [(Act.stats : Act Buffer)]) = samples js := by simp [samples]
      have hlayers : t.stats.1.layerAt id = t.layerAt id := by
        rw [VideoQualityAnalyzer.stats]
        split <;> rfl
      rw [hsamples, hlayers]
      exact hI

theorem accounts_layerAt {as : List (Act Buffer)} (hrun : Machine.run (step Q) {} as = some s)
    (id : Int) : Accounts ((samples as).filter (·.layerId = id)) (s.layerAt id).counts := by
  rw [counts_layerAt hrun]
  exact accounts_foldl _

theorem next_counts (c : Counts) (pair : VideoFramePair Buffer) :
    (c.next pair).captured = c.captured + 1 ∧
      (c.next pair).lost = c.lost + (if IsLost pair then 1 else 0) ∧
      (c.next pair).frozen = c.frozen + (if IsFrozen pair then 1 else 0) ∧
      (c.next pair).rendered = c.rendered + if IsRendered pair then 1 else 0 := by
  rw [Counts.next]
  cases hdecoded : pair.decoded with
  | none => simp [IsLost, IsFrozen, IsRendered, hdecoded]
  | some decoded =>
    by_cases hrepeated : pair.repeated = 0 <;>
      simp [IsLost, IsFrozen, IsRendered, hdecoded, hrepeated]

/-- In every run of pairs and queries: `stats` counts each pair handled so far as captured and as one
of lost, frozen and rendered, and each layer counts its own, with the frames skipped between two
that were rendered. -/
theorem stats_account_for_pairs (Q : Quality Buffer ρ) (as : List (Act Buffer))
    (s : VideoQualityAnalyzer ρ) (hrun : Machine.run (step Q) {} as = some s) :
    s.stats.2.capture.count = (samples as).length ∧
      s.stats.2.lostCount = (samples as).countP IsLost ∧
      s.stats.2.freezeCount = (samples as).countP IsFrozen ∧
      s.stats.2.render.count = (samples as).countP IsRendered ∧
      ∀ id, Accounts ((samples as).filter (·.layerId = id)) (s.layerAt id).counts := by
  have hnext := fun (a : VideoLayerAnalyzer ρ) (sample : VideoFramePair Buffer) => by
    have h := next_counts a.counts sample
    rw [← VideoLayerAnalyzer.counts_handleFramePair (Q := Q)] at h
    exact h
  rw [cached_total hrun]
  refine ⟨?_, ?_, ?_, ?_, accounts_layerAt hrun⟩
  · rw [total_countP (fun stats => stats.capture.count) (fun _ => true) rfl (fun _ _ => rfl)
      (fun a sample => (hnext a sample).1) hrun, List.countP_true]
  · exact total_countP (fun stats => stats.lostCount) IsLost rfl (fun _ _ => rfl)
      (fun a sample => (hnext a sample).2.1) hrun
  · exact total_countP (fun stats => stats.freezeCount) IsFrozen rfl (fun _ _ => rfl)
      (fun a sample => (hnext a sample).2.2.1) hrun
  · exact total_countP (fun stats => stats.render.count) IsRendered rfl (fun _ _ => rfl)
      (fun a sample => (hnext a sample).2.2.2) hrun

end VideoQualityAnalyzer

/-- The buffers of `widths`, with nothing to measure. -/
def widthQuality : Quality ℕ ℕ := ⟨id, id, fun a b => a - b + (b - a), fun _ => 0⟩

/-- A lost frame, a rendered one and its repeat, in two layers, with a query in between. -/
def mixedSteps : List (VideoQualityAnalyzer.Act ℕ) :=
  [.handleFramePair { capture := ⟨1, .micros 0, 4⟩, layerId := 0 }, .stats,
    .handleFramePair { capture := ⟨2, .micros 5, 4⟩, layerId := 0, decodeId := 1, decoded := some 3,
                       decodedTime := .micros 7, renderTime := .micros 9 },
    .handleFramePair { capture := ⟨2, .micros 5, 4⟩, layerId := 1, decodeId := 1, decoded := some 4,
                       decodedTime := .micros 8, renderTime := .micros 9, repeated := 1 }]

theorem mixed_pairs_accounted : ∃ s : VideoQualityAnalyzer ℕ,
    Machine.run (VideoQualityAnalyzer.step widthQuality) {} mixedSteps = some s ∧
      s.stats.2.capture.count = 3 ∧ s.stats.2.lostCount = 1 ∧ s.stats.2.freezeCount = 1 ∧
      s.stats.2.render.count = 1 := by
  have hrun : ∃ s : VideoQualityAnalyzer ℕ,
      Machine.run (VideoQualityAnalyzer.step widthQuality) {} mixedSteps = some s := ⟨_, rfl⟩
  obtain ⟨s, hrun⟩ := hrun
  obtain ⟨hcaptured, hlost, hfrozen, hrendered, -⟩ :=
    VideoQualityAnalyzer.stats_account_for_pairs widthQuality mixedSteps s hrun
  exact ⟨s, hrun, hcaptured, hlost, hfrozen, hrendered⟩

end WebrtcGccNs3.Video
