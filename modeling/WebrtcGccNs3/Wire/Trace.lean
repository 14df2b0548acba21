import WebrtcGccNs3.Lib.Records
import WebrtcGccNs3.Lib.Rounding
import Mathlib.Data.Finset.Card
import Mathlib.Order.Interval.Finset.Nat
import Mathlib.Data.List.TakeWhile
import Mathlib.Data.Rat.Floor
import Mathlib.Data.Int.Cast.Lemmas

/-!
# WebrtcTrace

The receiver's trace of webrtc-trace.cc: one-way delays, thinned, and a loss count
kept online. An open file is the list of lines written to it. The percentage is rounded
as it is written; the times stay in milliseconds. Bandwidth lines are not modelled.
-/
namespace WebrtcGccNs3.Wire

def toDouble (x : ℚ) : ℚ := Rounding.toPrecision 2 53 x

def toFloat (x : ℚ) : ℚ := Rounding.toPrecision 2 24 x

/-- `operator<<` at its default precision. -/
def printed (x : ℚ) : ℚ := Rounding.toPrecision 10 6 x

def kTraceOwdInterval : Int := 25

def E_WEBRTC_OWD : UInt8 := 0x01
def E_WEBRTC_LOSS : UInt8 := 0x04

/-- `none` is a closed file. -/
structure WebrtcTrace where
  flag : UInt8 := 0
  owd : Option (List (UInt32 × UInt32)) := none
  loss : Option (List ℚ) := none
  lastOutTime : Int := 0
  lossPkts : UInt32 := 0
  expectSeq : UInt32 := 1
  maxSeq : Int := 0

/-- The arguments of `OnReceiptPktInfo`. -/
structure ReceiptPktInfo where
  now : UInt32
  seq : UInt32
  owd : UInt32

namespace WebrtcTrace

/-- `Log`. Opening a file truncates it. -/
def log (t : WebrtcTrace) (flag : UInt8) : WebrtcTrace :=
  { t with
    owd := if flag &&& E_WEBRTC_OWD ≠ 0 then some [] else t.owd
    loss := if flag &&& E_WEBRTC_LOSS ≠ 0 then some [] else t.loss
    flag := flag }

/-- The first statement of `OnReceiptPktInfo`: a line, unless the last is too recent. -/
def traceOwd (t : WebrtcTrace) (now owd : UInt32) : WebrtcTrace :=
  if t.flag &&& E_WEBRTC_OWD ≠ 0 then
    match t.owd with
    | some lines =>
      if t.lastOutTime = 0 ∨ now.toNat - t.lastOutTime ≥ kTraceOwdInterval then
        { t with owd := some (lines ++ [(now, owd)]), lastOutTime := now.toNat }
      else t
    | none => t
  else t

/-- The rest of `OnReceiptPktInfo`. -/
def countLoss (t : WebrtcTrace) (seq : UInt32) : WebrtcTrace :=
  let t := if seq.toNat > t.maxSeq then { t with maxSeq := seq.toNat } else t
  if seq ≥ t.expectSeq then
    { t with lossPkts := t.lossPkts + (seq - t.expectSeq), expectSeq := seq + 1 }
  else t

def onReceiptPktInfo (t : WebrtcTrace) (info : ReceiptPktInfo) : WebrtcTrace :=
  (t.traceOwd info.now info.owd).countLoss info.seq

/-- The line of `CloseTraceLossFile`, rounded as it is. -/
def reportedLoss (t : WebrtcTrace) : ℚ :=
  printed (toFloat (toDouble (toDouble (100 * (t.lossPkts.toNat : ℚ)) / toDouble t.maxSeq)))

/-- `CloseTraceLossFile`: the lines of the file when it is closed, if it is. -/
def closeTraceLossFile (t : WebrtcTrace) : Option (List ℚ) :=
  if t.maxSeq ≠ 0 then t.loss.map (· ++ [t.reportedLoss]) else none

/-! ## The loss registers -/

open Records (top records)

section Frame

variable (t : WebrtcTrace) (now owd : UInt32)

@[simp] theorem traceOwd_lossPkts : (t.traceOwd now owd).lossPkts = t.lossPkts := by
  unfold traceOwd
  grind

@[simp] theorem traceOwd_expectSeq : (t.traceOwd now owd).expectSeq = t.expectSeq := by
  unfold traceOwd
  grind

@[simp] theorem traceOwd_maxSeq : (t.traceOwd now owd).maxSeq = t.maxSeq := by
  unfold traceOwd
  grind

@[simp] theorem traceOwd_loss : (t.traceOwd now owd).loss = t.loss := by
  unfold traceOwd
  grind

@[simp] theorem countLoss_loss (seq : UInt32) : (t.countLoss seq).loss = t.loss := by
  unfold countLoss
  grind

end Frame

/-- The registers after the packets `seqs`: the greatest of them, its successor, and how
many numbers below it were passed over. -/
structure Counted (t : WebrtcTrace) (seqs : List ℕ) : Prop where
  maxSeq : t.maxSeq = top 0 seqs
  expectSeq : t.expectSeq.toNat = top 0 seqs + 1
  lossPkts : t.lossPkts.toNat + (records 0 seqs).length = top 0 seqs

theorem counted_log (flag : UInt8) : Counted (({} : WebrtcTrace).log flag) [] := ⟨rfl, rfl, rfl⟩

section Registers

variable {t : WebrtcTrace} {info : ReceiptPktInfo}

theorem onReceiptPktInfo_maxSeq (t : WebrtcTrace) (info : ReceiptPktInfo) :
    (t.onReceiptPktInfo info).maxSeq = max t.maxSeq info.seq.toNat := by
  have hframe := traceOwd_maxSeq t info.now info.owd
  unfold onReceiptPktInfo countLoss
  grind

/-- A number from the expected one on: those in between are lost. -/
theorem onReceiptPktInfo_of_ge (h : info.seq ≥ t.expectSeq) :
    (t.onReceiptPktInfo info).lossPkts = t.lossPkts + (info.seq - t.expectSeq) ∧
      (t.onReceiptPktInfo info).expectSeq = info.seq + 1 := by
  unfold onReceiptPktInfo countLoss
  split <;> simp [h]

theorem onReceiptPktInfo_of_lt (h : ¬ info.seq ≥ t.expectSeq) :
    (t.onReceiptPktInfo info).lossPkts = t.lossPkts ∧
      (t.onReceiptPktInfo info).expectSeq = t.expectSeq := by
  unfold onReceiptPktInfo countLoss
  split <;> simp [h]

end Registers

theorem counted_onReceiptPktInfo {t : WebrtcTrace} {seqs : List ℕ} {info : ReceiptPktInfo}
    (h : Counted t seqs) (hseq : info.seq.toNat < 2 ^ 32 - 1) :
    Counted (t.onReceiptPktInfo info) (seqs ++ [info.seq.toNat]) := by
  obtain ⟨hmax, hexpect, hloss⟩ := h
  have hmaxSeq : (t.onReceiptPktInfo info).maxSeq = top 0 (seqs ++ [info.seq.toNat]) := by
    rw [onReceiptPktInfo_maxSeq, hmax, Records.top_append_singleton]
    omega
  by_cases hnew : top 0 seqs < info.seq.toNat
  · have hge : info.seq ≥ t.expectSeq := by
      rw [ge_iff_le, UInt32.le_iff_toNat_le]
      omega
    have htop : top 0 (seqs ++ [info.seq.toNat]) = info.seq.toNat := by
      rw [Records.top_append_singleton, max_eq_right hnew.le]
    obtain ⟨hlossPkts, hexpectSeq⟩ := onReceiptPktInfo_of_ge hge
    refine ⟨hmaxSeq, ?_, ?_⟩
    · rw [hexpectSeq, htop, UInt32.toNat_add, show (1 : UInt32).toNat = 1 from rfl]
      omega
    · rw [hlossPkts, htop, Records.records_append_singleton, if_pos hnew, List.length_append,
        List.length_singleton, UInt32.toNat_add, UInt32.toNat_sub_of_le _ _ hge]
      omega
  · have hge : ¬ info.seq ≥ t.expectSeq := by
      rw [ge_iff_le, UInt32.le_iff_toNat_le]
      omega
    have htop : top 0 (seqs ++ [info.seq.toNat]) = top 0 seqs := by
      rw [Records.top_append_singleton, max_eq_left (not_lt.mp hnew)]
    obtain ⟨hlossPkts, hexpectSeq⟩ := onReceiptPktInfo_of_lt hge
    refine ⟨hmaxSeq, ?_, ?_⟩
    · rw [hexpectSeq, htop, hexpect]
    · rw [hlossPkts, htop, Records.records_append_singleton, if_neg hnew, List.append_nil, hloss]

/-- The trace after the packets, on a fresh object with its files opened. -/
def received (flag : UInt8) (arrivals : List ReceiptPktInfo) : WebrtcTrace :=
  arrivals.foldl onReceiptPktInfo (({} : WebrtcTrace).log flag)

def sequences (arrivals : List ReceiptPktInfo) : List ℕ := arrivals.map (·.seq.toNat)

theorem counted_received (flag : UInt8) {arrivals : List ReceiptPktInfo}
    (h : ∀ info ∈ arrivals, info.seq.toNat < 2 ^ 32 - 1) :
    Counted (received flag arrivals) (sequences arrivals) := by
  induction arrivals using List.reverseRecOn with
  | nil => exact counted_log flag
  | append_singleton arrivals info ih =>
    rw [received, List.foldl_append, sequences, List.map_append]
    exact counted_onReceiptPktInfo (ih fun i hi => h i (List.mem_append_left _ hi))
      (h info (by simp))

theorem loss_received (flag : UInt8) (arrivals : List ReceiptPktInfo) :
    (received flag arrivals).loss = if flag &&& E_WEBRTC_LOSS ≠ 0 then some [] else none := by
  induction arrivals using List.reverseRecOn with
  | nil => rfl
  | append_singleton arrivals info ih =>
    rw [received, List.foldl_append, List.foldl_cons, List.foldl_nil, onReceiptPktInfo,
      countLoss_loss, traceOwd_loss]
    exact ih

/-- The operands are exact in `double`. Only the quotient is rounded. -/
theorem reportedLoss_eq {t : WebrtcTrace} {n : ℕ} (hmax : t.maxSeq = n) (hbound : n < 2 ^ 32) :
    t.reportedLoss = printed (toFloat (toDouble (100 * (t.lossPkts.toNat : ℚ) / n))) := by
  have hloss : toDouble (100 * (t.lossPkts.toNat : ℚ)) = 100 * (t.lossPkts.toNat : ℚ) := by
    have hlt := t.lossPkts.toNat_lt
    have hnat := Rounding.toPrecision_natCast (K := ℚ) (b := 2) (p := 53)
      (n := 100 * t.lossPkts.toNat) (by decide) (by omega)
    exact_mod_cast hnat
  have hseq : toDouble n = n := Rounding.toPrecision_natCast (by decide) (by omega)
  rw [reportedLoss, hloss, hmax, Int.cast_natCast, hseq]

/-! ## Lost and overtaken packets -/

/-- `k` has arrived, but for the first time only after a higher number. -/
def Overtaken (seqs : List ℕ) (k : ℕ) : Prop := k ∈ seqs ∧ ∃ j ∈ seqs.takeWhile (· ≠ k), k < j

instance (seqs : List ℕ) : DecidablePred (Overtaken seqs) := fun k =>
  inferInstanceAs (Decidable (k ∈ seqs ∧ ∃ j ∈ seqs.takeWhile (· ≠ k), k < j))

/-- The numbers up to the highest that have not arrived. -/
def missing (seqs : List ℕ) : Finset ℕ := (Finset.Icc 1 (top 0 seqs)).filter (· ∉ seqs)

/-- The numbers up to the highest that have arrived late. -/
def overtaken (seqs : List ℕ) : Finset ℕ := (Finset.Icc 1 (top 0 seqs)).filter (Overtaken seqs)

variable {seqs : List ℕ} {k : ℕ}

theorem mem_records_iff (hk : 1 ≤ k) : k ∈ records 0 seqs ↔ k ∈ seqs ∧ ¬ Overtaken seqs k := by
  have hne : ∀ j ∈ seqs.takeWhile (· ≠ k), j ≠ k := fun j hj => by
    simpa using List.mem_takeWhile_imp hj
  rw [Records.mem_records, Overtaken]
  constructor
  · rintro ⟨-, hmem, hall⟩
    refine ⟨hmem, fun ⟨_, j, hj, hlt⟩ => ?_⟩
    exact absurd (hall j hj) hlt.not_gt
  · rintro ⟨hmem, hnot⟩
    refine ⟨hk, hmem, fun j hj => ?_⟩
    by_contra hle
    exact hnot ⟨hmem, j, hj, lt_of_le_of_ne (not_lt.mp hle) (Ne.symm (hne j hj))⟩

theorem card_missing_add_overtaken_add_records (seqs : List ℕ) :
    (missing seqs).card + (overtaken seqs).card + (records 0 seqs).length = top 0 seqs := by
  have hrec : (Finset.Icc 1 (top 0 seqs)).filter (fun k => k ∈ seqs ∧ ¬ Overtaken seqs k) =
      (records 0 seqs).toFinset := by
    ext k
    rw [Finset.mem_filter, Finset.mem_Icc, List.mem_toFinset]
    constructor
    · rintro ⟨⟨hk, -⟩, h⟩
      exact (mem_records_iff hk).mpr h
    · intro h
      have hk := Records.lt_of_mem_records h
      exact ⟨⟨hk, Records.le_top_of_mem_records h⟩, (mem_records_iff hk).mp h⟩
  have hin : (Finset.Icc 1 (top 0 seqs)).filter (· ∈ seqs) =
      overtaken seqs ∪ (records 0 seqs).toFinset := by
    rw [← hrec, overtaken, ← Finset.filter_or]
    refine Finset.filter_congr fun k _ => ?_
    rw [Overtaken]
    tauto
  have hdisj : Disjoint (overtaken seqs) (records 0 seqs).toFinset := by
    rw [← hrec, overtaken]
    exact Finset.disjoint_filter.mpr fun k _ h h' => h'.2 h
  have hsplit := Finset.card_filter_add_card_filter_not (s := Finset.Icc 1 (top 0 seqs)) (· ∈ seqs)
  rw [hin, Finset.card_union_of_disjoint hdisj, List.toFinset_card_of_nodup Records.records_nodup,
    Nat.card_Icc] at hsplit
  rw [missing]
  omega

/-- `m_lossPkts` counts the packets that have not arrived and those that arrived late, so
it counts the missing ones exactly when none was late. The percentage in the file is taken of it,
rounded to `double`, to `float` and to six digits. -/
theorem loss_counts_missing_and_overtaken (flag : UInt8) (arrivals : List ReceiptPktInfo)
    (h : ∀ info ∈ arrivals, 1 ≤ info.seq.toNat ∧ info.seq.toNat < 2 ^ 32 - 1) :
    (received flag arrivals).maxSeq = top 0 (sequences arrivals) ∧
      (received flag arrivals).lossPkts.toNat =
        (missing (sequences arrivals)).card + (overtaken (sequences arrivals)).card ∧
      ((received flag arrivals).lossPkts.toNat = (missing (sequences arrivals)).card ↔
        ∀ k, ¬ Overtaken (sequences arrivals) k) ∧
      (flag &&& E_WEBRTC_LOSS ≠ 0 → arrivals ≠ [] →
        (received flag arrivals).closeTraceLossFile = some [printed (toFloat (toDouble
          (100 * ((missing (sequences arrivals)).card + (overtaken (sequences arrivals)).card : ℚ) /
            top 0 (sequences arrivals))))]) := by
  obtain ⟨hmax, hexpect, hloss⟩ := counted_received flag fun info hi => (h info hi).2
  have hcard := card_missing_add_overtaken_add_records (sequences arrivals)
  have hsum : (received flag arrivals).lossPkts.toNat =
      (missing (sequences arrivals)).card + (overtaken (sequences arrivals)).card := by omega
  refine ⟨hmax, hsum, ?_, fun hflag hne => ?_⟩
  · have hempty : overtaken (sequences arrivals) = ∅ ↔ ∀ k, ¬ Overtaken (sequences arrivals) k := by
      rw [overtaken, Finset.filter_eq_empty_iff]
      refine ⟨fun hall k hk => ?_, fun hall k _ => hall k⟩
      obtain ⟨info, hi, rfl⟩ := List.mem_map.mp hk.1
      exact hall (Finset.mem_Icc.mpr ⟨(h info hi).1, Records.le_top_of_mem hk.1⟩) hk
    rw [hsum, ← hempty, ← Finset.card_eq_zero]
    omega
  · obtain ⟨info, rest, rfl⟩ := List.exists_cons_of_ne_nil hne
    have hpos : info.seq.toNat ≤ top 0 (sequences (info :: rest)) :=
      Records.le_top_of_mem List.mem_cons_self
    have hseq := (h info List.mem_cons_self).1
    have hzero : (received flag (info :: rest)).maxSeq ≠ 0 := by omega
    have hbound : top 0 (sequences (info :: rest)) < 2 ^ 32 := by
      have hlt := (received flag (info :: rest)).expectSeq.toNat_lt
      omega
    rw [closeTraceLossFile, if_pos hzero, loss_received, if_pos hflag, reportedLoss_eq hmax hbound, hsum]
    simp [Nat.cast_add]

/-- Packets 1, 4 and 3, with 2 lost: two of four are counted. -/
theorem loss_of_one_late_packet :
    (received E_WEBRTC_LOSS [⟨10, 1, 5⟩, ⟨20, 4, 5⟩, ⟨30, 3, 5⟩]).lossPkts = 2 ∧
      (received E_WEBRTC_LOSS [⟨10, 1, 5⟩, ⟨20, 4, 5⟩, ⟨30, 3, 5⟩]).lossPkts.toNat =
        (missing [1, 4, 3]).card + (overtaken [1, 4, 3]).card :=
  ⟨by decide, (loss_counts_missing_and_overtaken E_WEBRTC_LOSS
    [⟨10, 1, 5⟩, ⟨20, 4, 5⟩, ⟨30, 3, 5⟩] (by decide)).2.1⟩

/-- Packets 2 and 1: none is missing, and one is counted. -/
theorem overtaken_packet_is_counted_lost :
    ¬ ∀ (flag : UInt8) (arrivals : List ReceiptPktInfo),
      (∀ info ∈ arrivals, 1 ≤ info.seq.toNat ∧ info.seq.toNat < 2 ^ 32 - 1) →
      (received flag arrivals).lossPkts.toNat = (missing (sequences arrivals)).card := by
  intro hall
  have hcount := hall 0 [⟨10, 2, 5⟩, ⟨20, 1, 5⟩] (by decide)
  revert hcount
  decide

end WebrtcTrace

end WebrtcGccNs3.Wire
