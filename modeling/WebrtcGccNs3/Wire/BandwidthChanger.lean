import WebrtcGccNs3.Lib.StepFunction
import WebrtcGccNs3.Wire.Time
import Mathlib.Data.List.TakeWhile
import Mathlib.Algebra.Order.BigOperators.Group.List

/-!
# BandwidthChanger

The schedule of link rates of webrtc-static.cc, and the number of bits that it could
have carried. Rates are in bits per second. An `int64_t` that overflows is undefined,
and `none` here. So are an access out of the bounds of `m_info`, and an index of
`std::lower_bound` that is no `int`.
-/
namespace WebrtcGccNs3.Wire

def int64 (x : Int) : Option Int := if -2 ^ 63 ≤ x ∧ x < 2 ^ 63 then some x else none

structure BandwidthChanger where
  initialRate : Int := 0
  info : List (Time × Int) := []

namespace BandwidthChanger

/-- `std::lower_bound` with `CompareV`, on an `m_info` sorted by time. -/
def lowerBoundIndex (b : BandwidthChanger) (point : Time) : ℕ :=
  (b.info.takeWhile (·.1 < point)).length

/-- `bit+=rate*(length.GetMilliSeconds()/1000)` -/
def accumulate (bit rate : Int) (length : Time) : Option Int := do
  let product ← int64 (rate * length.wholeSeconds)
  int64 (bit + product)

/-- The body of the loop. -/
def countPiece (b : BandwidthChanger) (bit : Int) (i : ℕ) : Option Int := do
  let e ← b.info[i]?
  if i = 0 then accumulate bit b.initialRate e.1
  else
    let previous ← b.info[i - 1]?
    accumulate bit previous.2 (e.1 - previous.1)

/-- `TotalThroughput`: the value of `channel_bit`. -/
def totalThroughput (b : BandwidthChanger) (stop : Time) : Option Int :=
  let index := b.lowerBoundIndex stop
  if index < 2 ^ 31 then
    if index = 0 then some 0
    else do
      let bit ← (List.range index).foldlM b.countPiece 0
      let back ← b.info.getLast?
      if stop > back.1 then accumulate bit back.2 (stop - back.1) else some bit
  else none

/-! ## What it should be -/

open StepFunction

/-- The rate from `rate` on through the changes. -/
def rateFrom (rate : Int) : List (Time × Int) → Time → Int
  | [], _ => rate
  | (time, next) :: info, t => if t < time then rate else rateFrom next info t

/-- The rate of the link at a time. -/
def rateAt (b : BandwidthChanger) (t : Time) : Int := rateFrom b.initialRate b.info t

/-- Increasing positive times, and no negative rate. -/
structure Schedule (b : BandwidthChanger) : Prop where
  times : ((0, b.initialRate) :: b.info).Pairwise fun e e' => e.1 < e'.1
  rates : ∀ e ∈ (0, b.initialRate) :: b.info, 0 ≤ e.2

/-- The sum over the maximal segments of `[0, stop)` on which the rate is constant, of the rate
times the whole seconds. -/
noncomputable def integral (b : BandwidthChanger) (stop : Time) : Int :=
  ∑ᶠ p ∈ maximalSegments b.rateAt 0 stop, b.rateAt p.1 * ((p.2 - p.1).getMilliSeconds / 1000)

/-! ## What the code counts -/

/-- A rate, the seconds of it that are counted, and the time that is left out. -/
abbrev Piece := Int × Int × Int

def countedPiece (rate length : Int) : Piece :=
  (rate, Time.wholeSeconds length, length - Time.wholeSeconds length * 1000000000)

def leftOutPiece (rate length : Int) : Piece := (rate, 0, length)

/-- The length of a piece, or of a run of pieces. -/
def duration (x : Int × Int) : Int := x.1 * 1000000000 + x.2

/-- The rates from `e` on, with how long each lasts until the next change. -/
def intervals : Time × Int → List (Time × Int) → List (Int × Int)
  | _, [] => []
  | e, change :: info => (e.2, change.1 - e.1) :: intervals change info

/-- The last piece before `stop` counts when there is a change, and none from `stop` on. -/
def lastPiece (b : BandwidthChanger) (stop : Time) : Int → Int → Piece :=
  if b.info ≠ [] ∧ ∀ e ∈ b.info, e.1 < stop then countedPiece else leftOutPiece

/-- The changes before `stop`. -/
def changes (b : BandwidthChanger) (stop : Time) : List (Time × Int) := b.info.takeWhile (·.1 < stop)

/-- The pieces that the changes cut `[0, stop)` into. -/
def pieces (b : BandwidthChanger) (stop : Time) : List Piece :=
  let start := (0, b.initialRate)
  let last := (start :: b.changes stop).getLast (List.cons_ne_nil _ _)
  (intervals start (b.changes stop)).map (fun p => countedPiece p.1 p.2) ++
    [b.lastPiece stop last.2 (stop - last.1)]

/-- In each segment with a rate, less than a second is left out. -/
def LeavesOutNoSecond (b : BandwidthChanger) (stop : Time) : Prop :=
  ∀ p ∈ mergeRuns (b.pieces stop), p.1 ≠ 0 → p.2.2 < 1000000000

section Intervals

variable {e : Time × Int} {info : List (Time × Int)}

theorem getElem?_intervals (e : Time × Int) (info : List (Time × Int)) (i : ℕ) :
    (intervals e info)[i]? = info[i]?.bind fun change =>
      (e :: info)[i]?.map fun previous => (previous.2, change.1 - previous.1) := by
  induction info generalizing e i with
  | nil => simp [intervals]
  | cons change info ih =>
    cases i with
    | zero => rfl
    | succ i => simp only [intervals, List.getElem?_cons_succ, ih]

theorem take_intervals (e : Time × Int) (info : List (Time × Int)) (k : ℕ) :
    (intervals e info).take k = intervals e (info.take k) := by
  induction info generalizing e k with
  | nil => simp [intervals]
  | cons change info ih =>
    cases k with
    | zero => rfl
    | succ k => simp only [intervals, List.take_succ_cons, ih]

end Intervals

/-! ## The loop -/

theorem int64_bind_add {x y : Int} (hx : 0 ≤ x) (hy : 0 ≤ y) :
    (int64 x).bind (fun z => int64 (z + y)) = int64 (x + y) := by
  unfold int64
  split
  · rfl
  · rw [if_neg (by omega), Option.bind_none]

theorem int64_bind_accumulate {bit rate length : Int} (hbit : 0 ≤ bit)
    (hterm : 0 ≤ rate * Time.wholeSeconds length) :
    (int64 bit).bind (accumulate · rate length) = int64 (bit + rate * Time.wholeSeconds length) := by
  rw [← int64_bind_add hbit hterm]
  apply Option.bind_congr
  intro x hx
  have hle : 0 ≤ x := by
    unfold int64 at hx
    split at hx
    · exact Option.some.inj hx ▸ hbit
    · cases hx
  show (int64 _).bind (fun product => int64 (x + product)) = _
  rw [add_comm x, ← int64_bind_add hterm hle]
  exact Option.bind_congr fun y _ => by rw [add_comm]

/-- A sum of terms that are not negative overflows on the way only if it does in the end. -/
theorem int64_bind_foldlM {ps : List (Int × Int)} {bit : Int} (hbit : 0 ≤ bit)
    (hps : ∀ p ∈ ps, 0 ≤ p.1 * Time.wholeSeconds p.2) :
    (int64 bit).bind (ps.foldlM fun bit p => accumulate bit p.1 p.2) =
      int64 (bit + (ps.map fun p => p.1 * Time.wholeSeconds p.2).sum) := by
  induction ps generalizing bit with
  | nil => simp
  | cons p ps ih =>
    obtain ⟨hp, hps⟩ := List.forall_mem_cons.mp hps
    have hfold : (fun bit => (p :: ps).foldlM (fun bit p => accumulate bit p.1 p.2) bit) =
        fun bit => (accumulate bit p.1 p.2).bind (ps.foldlM fun bit p => accumulate bit p.1 p.2) :=
      funext fun bit => List.foldlM_cons
    rw [hfold, ← Option.bind_assoc, int64_bind_accumulate hbit hp, ih (by omega) hps, List.map_cons,
      List.sum_cons, add_assoc]

theorem foldlM_countPiece (b : BandwidthChanger) {k : ℕ} (hk : k ≤ b.info.length) :
    (List.range k).foldlM b.countPiece 0 =
      (intervals (0, b.initialRate) (b.info.take k)).foldlM (fun bit p => accumulate bit p.1 p.2) 0 := by
  induction k with
  | zero => rfl
  | succ k ih =>
    obtain ⟨change, hchange⟩ : ∃ change, b.info[k]? = some change :=
      ⟨_, List.getElem?_eq_getElem (Nat.lt_of_succ_le hk)⟩
    obtain ⟨previous, hprevious⟩ : ∃ previous, ((0, b.initialRate) :: b.info)[k]? = some previous :=
      ⟨_, List.getElem?_eq_getElem (Nat.lt_of_lt_of_le hk (Nat.le_succ _))⟩
    have hinterval : (intervals (0, b.initialRate) b.info)[k]? =
        some (previous.2, change.1 - previous.1) := by
      simp [getElem?_intervals, hchange, hprevious]
    have hbody : ∀ bit, b.countPiece bit k = accumulate bit previous.2 (change.1 - previous.1) := by
      intro bit
      cases k with
      | zero =>
        obtain rfl := Option.some.inj hprevious
        simp [countPiece, hchange]
      | succ k =>
        have hprevious : b.info[k]? = some previous := hprevious
        simp [countPiece, hchange, hprevious]
    rw [← take_intervals, List.take_add_one, hinterval, List.range_succ, List.foldlM_append,
      List.foldlM_append, ih (Nat.le_of_succ_le hk), take_intervals]
    simp [hbody]

/-! ## Pieces of a schedule -/

section Pieces

variable {b : BandwidthChanger} {stop : Int} {e : Int × Int} {info : List (Int × Int)}

/-- The changes come in order after the first entry. -/
def Ordered (e : Int × Int) (info : List (Int × Int)) : Prop :=
  (e :: info).Pairwise fun e e' => e.1 < e'.1

theorem intervals_nonneg (h : Ordered e info) (hrates : ∀ x ∈ e :: info, 0 ≤ x.2) :
    ∀ p ∈ intervals e info, 0 ≤ p.1 ∧ 0 ≤ p.2 := by
  induction info generalizing e with
  | nil => exact fun p hp => absurd hp List.not_mem_nil
  | cons change info ih =>
    obtain ⟨hlt, hinfo⟩ := List.pairwise_cons.mp h
    obtain ⟨hrate, hrates⟩ := List.forall_mem_cons.mp hrates
    have hle : e.1 ≤ change.1 := (hlt change List.mem_cons_self).le
    exact List.forall_mem_cons.mpr ⟨⟨hrate, Int.sub_nonneg_of_le hle⟩, ih hinfo hrates⟩

/-- The intervals, and what is left after the last change before `stop`, make up the rate. -/
theorem describes_intervals {ρ : Int → Int} (h : Ordered e info) (hstop : e.1 < stop)
    (hρ : ∀ t, e.1 ≤ t → ρ t = rateFrom e.2 info t) {changes : List (Int × Int)}
    (hchanges : changes = info.takeWhile (·.1 < stop)) {last : Int × Int}
    (hlast : last ∈ (e :: changes).getLast?) :
    Describes ρ e.1 stop (intervals e changes ++ [(last.2, stop - last.1)]) := by
  have hrest : ∀ {e : Int × Int}, e.1 < stop → (∀ t, e.1 ≤ t → t < stop → ρ t = e.2) →
      Describes ρ e.1 stop [(e.2, stop - e.1)] := fun {e} hlt hconst =>
    ⟨by omega, fun t hge ht => hconst t hge (by omega), by show e.1 + (stop - e.1) = stop; omega⟩
  induction info generalizing e changes with
  | nil =>
    subst hchanges
    obtain rfl : e = last := by simpa using hlast
    exact hrest hstop fun t hge _ => hρ t hge
  | cons change info ih =>
    obtain ⟨hlt, hinfo⟩ := List.pairwise_cons.mp h
    have hnext : e.1 < change.1 := hlt change List.mem_cons_self
    by_cases hbefore : change.1 < stop
    · rw [List.takeWhile_cons_of_pos (by simpa using hbefore)] at hchanges
      subst hchanges
      refine ⟨Int.sub_pos_of_lt hnext, fun t hge ht => ?_, ?_⟩
      · have ht : t < change.1 := by omega
        rw [hρ t hge, rateFrom, if_pos ht]
      · have hstart : e.1 + (change.1 - e.1) = change.1 := by omega
        rw [hstart]
        refine ih hinfo hbefore (fun t hge => ?_) rfl (by simpa using hlast)
        rw [hρ t (by omega), rateFrom, if_neg (not_lt.mpr hge)]
    · rw [List.takeWhile_cons_of_neg (by simpa using hbefore)] at hchanges
      subst hchanges
      obtain rfl : e = last := by simpa using hlast
      apply hrest hstop
      intro t hge ht
      exact (hρ t hge).trans (if_pos (lt_of_lt_of_le ht (not_lt.mp hbefore)))

end Pieces

section Schedule

variable {b : BandwidthChanger} {stop : Int}

theorem changes_sublist (b : BandwidthChanger) (stop : Int) :
    ((0, b.initialRate) :: b.changes stop).Sublist ((0, b.initialRate) :: b.info) :=
  (List.takeWhile_sublist _).cons_cons _

theorem lt_of_mem_changes {x : Time × Int} (h : x ∈ b.changes stop) : x.1 < stop := by
  simpa using List.mem_takeWhile_imp h

theorem intervals_changes_nonneg (h : b.Schedule) (stop : Int) :
    ∀ p ∈ intervals (0, b.initialRate) (b.changes stop), 0 ≤ p.1 ∧ 0 ≤ p.2 :=
  intervals_nonneg (h.times.sublist (changes_sublist b stop))
    fun x hx => h.rates x ((changes_sublist b stop).subset hx)

theorem terms_nonneg (h : b.Schedule) (stop : Int) :
    ∀ p ∈ intervals (0, b.initialRate) (b.changes stop), 0 ≤ p.1 * Time.wholeSeconds p.2 :=
  fun p hp => mul_nonneg (intervals_changes_nonneg h stop p hp).1
    (Time.wholeSeconds_nonneg (intervals_changes_nonneg h stop p hp).2)

theorem lastPiece_eq (b : BandwidthChanger) (stop : Int) :
    b.lastPiece stop = countedPiece ∨ b.lastPiece stop = leftOutPiece := by
  unfold lastPiece
  split
  · exact Or.inl rfl
  · exact Or.inr rfl

/-- The last piece is the one of the last entry before `stop`. -/
theorem exists_last (h : b.Schedule) (hstop : 0 ≤ stop) :
    ∃ last ∈ ((0, b.initialRate) :: b.changes stop).getLast?,
      b.pieces stop = (intervals (0, b.initialRate) (b.changes stop)).map
        (fun p => countedPiece p.1 p.2) ++ [b.lastPiece stop last.2 (stop - last.1)] ∧
      0 ≤ last.2 ∧ last.1 ≤ stop := by
  refine ⟨_, List.getLast?_eq_some_getLast (List.cons_ne_nil _ _), rfl, ?_, ?_⟩
  · exact h.rates _ ((changes_sublist b stop).subset (List.getLast_mem (List.cons_ne_nil _ _)))
  · rcases List.mem_cons.mp (List.getLast_mem (List.cons_ne_nil (0, b.initialRate)
      (b.changes stop))) with heq | hmem
    · rw [heq]
      exact hstop
    · exact (lt_of_mem_changes hmem).le

theorem duration_countedPiece (rate length : Int) : duration (countedPiece rate length).2 = length := by
  simp only [duration, countedPiece]
  omega

theorem duration_leftOutPiece (rate length : Int) : duration (leftOutPiece rate length).2 = length := by
  simp only [duration, leftOutPiece]
  omega

/-- No part of a piece is negative. -/
theorem pieces_nonneg (h : b.Schedule) (hstop : 0 ≤ stop) :
    ∀ p ∈ b.pieces stop, 0 ≤ p.1 ∧ 0 ≤ p.2.1 ∧ 0 ≤ p.2.2 := by
  have hcounted : ∀ rate length : Int, 0 ≤ rate → 0 ≤ length →
      0 ≤ (countedPiece rate length).1 ∧ 0 ≤ (countedPiece rate length).2.1 ∧
        0 ≤ (countedPiece rate length).2.2 := by
    intro rate length hrate hlength
    simp only [countedPiece, Time.wholeSeconds_of_nonneg hlength]
    exact ⟨hrate, by omega, by omega⟩
  obtain ⟨last, -, hpieces, hrate, hle⟩ := exists_last h hstop
  have hintervals := intervals_changes_nonneg h stop
  intro p hp
  rw [hpieces, List.mem_append, List.mem_map, List.mem_singleton] at hp
  rcases hp with ⟨q, hq, rfl⟩ | rfl
  · exact hcounted q.1 q.2 (hintervals q hq).1 (hintervals q hq).2
  · rcases lastPiece_eq b stop with heq | heq <;> rw [heq]
    · exact hcounted _ _ hrate (Int.sub_nonneg_of_le hle)
    · exact ⟨hrate, le_refl _, Int.sub_nonneg_of_le hle⟩

theorem runs_nonneg (h : b.Schedule) (hstop : 0 ≤ stop) :
    ∀ p ∈ mergeRuns (b.pieces stop), 0 ≤ p.1 ∧ 0 ≤ p.2.1 ∧ 0 ≤ p.2.2 :=
  forall_mergeRuns (P := fun (rate : Int) (x : Int × Int) => 0 ≤ rate ∧ 0 ≤ x.1 ∧ 0 ≤ x.2)
    (fun _ _ _ hx hy => ⟨hx.1, add_nonneg hx.2.1 hy.2.1, add_nonneg hx.2.2 hy.2.2⟩)
    (pieces_nonneg h hstop)

theorem duration_lastPiece (b : BandwidthChanger) (stop rate length : Int) :
    duration (b.lastPiece stop rate length).2 = length ∧ (b.lastPiece stop rate length).1 = rate := by
  rcases lastPiece_eq b stop with heq | heq <;> rw [heq]
  · exact ⟨duration_countedPiece _ _, rfl⟩
  · exact ⟨duration_leftOutPiece _ _, rfl⟩

theorem exists_pieces_zero (h : b.Schedule) : ∃ p, b.pieces 0 = [p] ∧ duration p.2 = 0 := by
  have hnone : b.changes 0 = [] := by
    apply List.eq_nil_iff_forall_not_mem.mpr
    intro x hx
    have hpos : 0 < x.1 := (List.pairwise_cons.mp h.times).1 x ((List.takeWhile_sublist _).subset hx)
    exact absurd (lt_of_mem_changes hx) hpos.le.not_gt
  obtain ⟨last, hlast, hpieces, -⟩ := exists_last h le_rfl
  rw [hnone] at hlast hpieces
  obtain rfl : (0, b.initialRate) = last := by simpa using hlast
  exact ⟨_, hpieces, (duration_lastPiece b 0 _ _).1⟩

theorem describes_pieces (h : b.Schedule) (hstop : 0 < stop) :
    Describes b.rateAt 0 stop ((b.pieces stop).map fun p => (p.1, duration p.2)) := by
  obtain ⟨last, hlast, hpieces, -⟩ := exists_last h hstop.le
  have hend := duration_lastPiece b stop last.2 (stop - last.1)
  have hmap : (b.pieces stop).map (fun p => (p.1, duration p.2)) =
      intervals (0, b.initialRate) (b.changes stop) ++ [(last.2, stop - last.1)] := by
    rw [hpieces, List.map_append, List.map_map, List.map_singleton, hend.1, hend.2]
    refine congrArg (· ++ _) ((List.map_congr_left fun p _ => ?_).trans (List.map_id _))
    exact Prod.ext rfl (duration_countedPiece p.1 p.2)
  rw [hmap]
  exact describes_intervals h.times hstop (fun _ _ => rfl) rfl hlast

/-- The integral, over the runs of pieces. -/
theorem integral_eq (h : b.Schedule) (hstop : 0 ≤ stop) :
    b.integral stop =
      ((mergeRuns (b.pieces stop)).map fun p => p.1 * (p.2.1 + p.2.2 / 1000000000)).sum := by
  have hruns : b.integral stop = ((mergeRuns (b.pieces stop)).map fun p =>
      p.1 * (Time.getMilliSeconds (duration p.2) / 1000)).sum := by
    rcases hstop.eq_or_lt with rfl | hpos
    · obtain ⟨p, hpieces, hduration⟩ := exists_pieces_zero h
      rw [integral, maximalSegments_self, finsum_mem_empty, hpieces]
      simp [mergeRuns, mergeFrom, hduration, Time.getMilliSeconds]
    · have hadd : ∀ x y : Int × Int, duration (x + y) = duration x + duration y := fun x y => by
        simp only [duration, Prod.fst_add, Prod.snd_add]
        omega
      have hsum := finsum_maximalSegments (fun rate length => rate * (Time.getMilliSeconds length / 1000))
        (describes_pieces h hpos)
      rw [mergeRuns_map hadd, List.map_map] at hsum
      exact hsum
  rw [hruns]
  refine congrArg List.sum (List.map_congr_left fun p hp => ?_)
  have hnonneg := (runs_nonneg h hstop p hp).2
  rw [Time.getMilliSeconds_of_nonneg (by simp only [duration]; omega)]
  apply congrArg (p.1 * ·)
  simp only [duration]
  omega

/-- The last entry is before `stop` only if all are. -/
theorem forall_lt_iff (h : b.Schedule) {back : Time × Int} (hback : b.info.getLast? = some back) :
    (∀ e ∈ b.info, e.1 < stop) ↔ back.1 < stop := by
  obtain ⟨info, hinfo⟩ := List.getLast?_eq_some_iff.mp hback
  have hsorted := (List.pairwise_cons.mp h.times).2
  rw [hinfo, List.pairwise_append] at hsorted
  rw [hinfo]
  constructor
  · exact fun hall => hall back (by simp)
  · intro hlt e he
    rcases List.mem_append.mp he with he | he
    · exact (hsorted.2.2 e he back (by simp)).trans hlt
    · rwa [List.mem_singleton.mp he]

theorem sum_loop (h : b.Schedule) (stop : Int) :
    (List.range (b.lowerBoundIndex stop)).foldlM b.countPiece 0 =
      int64 ((intervals (0, b.initialRate) (b.changes stop)).map
        fun p => p.1 * Time.wholeSeconds p.2).sum := by
  have hprefix : b.changes stop <+: b.info := List.takeWhile_prefix _
  have hsum := int64_bind_foldlM (le_refl 0) (terms_nonneg h stop)
  rw [zero_add] at hsum
  have hindex : b.lowerBoundIndex stop = (b.changes stop).length := rfl
  rw [← hsum, hindex, foldlM_countPiece b hprefix.length_le, ← List.prefix_iff_eq_take.mp hprefix]
  rfl

theorem totalThroughput_eq (h : b.Schedule) (hstop : 0 ≤ stop)
    (hint : (b.changes stop).length < 2 ^ 31) :
    b.totalThroughput stop = int64 ((b.pieces stop).map fun p => p.1 * p.2.1).sum := by
  obtain ⟨last, hlast, hpieces, hrate, hle⟩ := exists_last h hstop
  have hsum : ((b.pieces stop).map fun p => p.1 * p.2.1).sum =
      ((intervals (0, b.initialRate) (b.changes stop)).map
        fun p => p.1 * Time.wholeSeconds p.2).sum +
      (b.lastPiece stop last.2 (stop - last.1)).1 * (b.lastPiece stop last.2 (stop - last.1)).2.1 := by
    rw [hpieces, List.map_append, List.sum_append, List.map_map, List.map_singleton, List.sum_singleton]
    rfl
  have hindex : b.lowerBoundIndex stop = (b.changes stop).length := rfl
  rw [hsum, totalThroughput, if_pos (hindex ▸ hint)]
  by_cases hall : b.info ≠ [] ∧ ∀ e ∈ b.info, e.1 < stop
  · -- every change is before `stop`, so that the rest after the last is added
    obtain ⟨hne, hbefore⟩ := hall
    have hchanges : b.changes stop = b.info :=
      List.takeWhile_eq_self_iff.mpr fun e he => decide_eq_true (hbefore e he)
    have hzero : b.lowerBoundIndex stop ≠ 0 := by
      rw [hindex, hchanges, ne_eq, List.length_eq_zero_iff]
      exact hne
    obtain ⟨back, hback⟩ : ∃ back, b.info.getLast? = some back :=
      ⟨_, List.getLast?_eq_some_getLast hne⟩
    obtain rfl : back = last := by
      rw [hchanges] at hlast
      simpa [List.getLast?_cons, hback] using hlast
    have hlt : stop > back.1 := (forall_lt_iff h hback).mp hbefore
    have hpiece : b.lastPiece stop = countedPiece := if_pos ⟨hne, hbefore⟩
    have hterm : 0 ≤ back.2 * Time.wholeSeconds (stop - back.1) :=
      mul_nonneg hrate (Time.wholeSeconds_nonneg (Int.sub_nonneg_of_le hle))
    rw [if_neg hzero, sum_loop h stop, hback, hpiece]
    refine Eq.trans ?_ (int64_bind_accumulate (List.sum_nonneg ?_) hterm)
    · simp [hlt, countedPiece]
    · intro x hx
      obtain ⟨p, hp, rfl⟩ := List.mem_map.mp hx
      exact terms_nonneg h stop p hp
  · have hpiece : b.lastPiece stop = leftOutPiece := if_neg hall
    rw [hpiece, show (leftOutPiece last.2 (stop - last.1)).2.1 = 0 from rfl, mul_zero, add_zero]
    by_cases hzero : b.lowerBoundIndex stop = 0
    · have hchanges : b.changes stop = [] := List.length_eq_zero_iff.mp hzero
      rw [if_pos hzero, hchanges]
      rfl
    · have hne : b.info ≠ [] := fun hnil => hzero (by rw [lowerBoundIndex, hnil]; rfl)
      obtain ⟨back, hback⟩ : ∃ back, b.info.getLast? = some back :=
        ⟨_, List.getLast?_eq_some_getLast hne⟩
      have hge : ¬ stop > back.1 := fun hlt => hall ⟨hne, (forall_lt_iff h hback).mpr hlt⟩
      rw [if_neg hzero, sum_loop h stop, hback]
      simp [hge]

/-- What is left out, in whole seconds of the segments. -/
theorem integral_sub (h : b.Schedule) (hstop : 0 ≤ stop) :
    b.integral stop = ((b.pieces stop).map fun p => p.1 * p.2.1).sum +
      ((mergeRuns (b.pieces stop)).map fun p => p.1 * (p.2.2 / 1000000000)).sum := by
  have hruns := sum_mergeRuns (f := fun (rate : Int) (x : Int × Int) => rate * x.1)
    (fun rate x y => mul_add rate x.1 y.1) (b.pieces stop)
  rw [integral_eq h hstop, ← hruns, ← List.sum_map_add]
  exact congrArg List.sum (List.map_congr_left fun p _ => mul_add _ _ _)

theorem leavesOutNoSecond_iff (h : b.Schedule) (hstop : 0 ≤ stop) : b.LeavesOutNoSecond stop ↔
    ((mergeRuns (b.pieces stop)).map fun p => p.1 * (p.2.2 / 1000000000)).sum = 0 := by
  have hnonneg := runs_nonneg h hstop
  constructor
  · intro hless
    apply List.sum_eq_zero
    intro x hx
    obtain ⟨p, hp, rfl⟩ := List.mem_map.mp hx
    by_cases hrate : p.1 = 0
    · rw [hrate, zero_mul]
    · have hlt := hless p hp hrate
      have hge := (hnonneg p hp).2.2
      rw [Int.ediv_eq_zero_of_lt hge hlt, mul_zero]
  · intro hsum p hp hrate
    have hterms : ∀ x ∈ (mergeRuns (b.pieces stop)).map fun p => p.1 * (p.2.2 / 1000000000), 0 ≤ x := by
      intro x hx
      obtain ⟨q, hq, rfl⟩ := List.mem_map.mp hx
      exact mul_nonneg (hnonneg q hq).1 (Int.ediv_nonneg (hnonneg q hq).2.2 (by decide))
    have hzero := List.all_zero_of_le_zero_le_of_sum_eq_zero hterms hsum (List.mem_map_of_mem hp)
    have hseconds := (mul_eq_zero.mp hzero).resolve_left hrate
    omega

/-- `TotalThroughput` gives the integral of the schedule exactly when it can count the changes before
`stop`, in each segment with a rate leaves out less than a second, and the integral is an `int64_t`. -/
theorem totalThroughput_eq_integral_iff (b : BandwidthChanger) (stop : Time) (h : b.Schedule)
    (hstop : 0 ≤ stop) :
    b.totalThroughput stop = some (b.integral stop) ↔
      (b.changes stop).length < 2 ^ 31 ∧ b.LeavesOutNoSecond stop ∧ b.integral stop < 2 ^ 63 := by
  have hnonneg : 0 ≤ ((b.pieces stop).map fun p => p.1 * p.2.1).sum := by
    apply List.sum_nonneg
    intro x hx
    obtain ⟨p, hp, rfl⟩ := List.mem_map.mp hx
    have hp := pieces_nonneg h hstop p hp
    exact mul_nonneg hp.1 hp.2.1
  by_cases hint : (b.changes stop).length < 2 ^ 31
  swap
  · have hnone : b.totalThroughput stop = none := if_neg hint
    rw [hnone]
    exact iff_of_false nofun fun hwhen => hint hwhen.1
  rw [and_iff_right hint, totalThroughput_eq h hstop hint, leavesOutNoSecond_iff h hstop,
    integral_sub h hstop, int64]
  constructor
  · intro heq
    split at heq
    · have heq := Option.some.inj heq
      omega
    · cases heq
  · rintro ⟨hzero, hlt⟩
    rw [hzero, add_zero] at hlt ⊢
    exact if_pos ⟨by omega, hlt⟩

/-- 5 Mbit/s for 20 s, and then 4 Mbit/s until 30 s. -/
theorem throughput_after_the_last_change :
    BandwidthChanger.totalThroughput ⟨5000000, [(20000000000, 4000000)]⟩ 30000000000 = some 140000000 := by
  have h : Schedule ⟨5000000, [(20000000000, 4000000)]⟩ := ⟨by decide, by decide⟩
  have hintegral : BandwidthChanger.integral ⟨5000000, [(20000000000, 4000000)]⟩ 30000000000 = 140000000 :=
    (integral_eq h (by decide)).trans (by decide)
  rw [← hintegral]
  refine (totalThroughput_eq_integral_iff ⟨5000000, [(20000000000, 4000000)]⟩ 30000000000 h
    (by decide)).mpr ⟨by decide, ?_, by rw [hintegral]; decide⟩
  unfold LeavesOutNoSecond
  decide

/-- 5 Mbit/s until 10 s: the change at 20 s is still ahead. -/
theorem throughput_before_the_first_change_is_zero :
    ¬ ∀ (b : BandwidthChanger) (stop : Time), b.Schedule → 0 ≤ stop →
      b.totalThroughput stop = some (b.integral stop) := by
  intro hall
  have h : Schedule ⟨5000000, [(20000000000, 4000000)]⟩ := ⟨by decide, by decide⟩
  have hintegral : BandwidthChanger.integral ⟨5000000, [(20000000000, 4000000)]⟩ 10000000000 = 50000000 :=
    (integral_eq h (by decide)).trans (by decide)
  have heq := hall _ 10000000000 h (by decide)
  rw [hintegral] at heq
  revert heq
  decide

end Schedule

end BandwidthChanger

end WebrtcGccNs3.Wire
