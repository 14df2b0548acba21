import WebrtcGccNs3.Wire.Trace
import Mathlib.Tactic.NormNum

/-!
# The loss registers and the reported percentage

Without a packet `2 ^ 32 - 1` no register wraps, and `m_lossPkts` is the highest number
less the number of packets that were the highest so far. It is less than `m_maxSeq`. But
the percentage goes through `double` and `float` into the file, with six digits: one
close to 100 is reported as 100.
-/
namespace WebrtcGccNs3.Wire

namespace WebrtcTrace

open Records (top records)

/-- No operation on the registers wraps when the packet arrives. -/
def NoWrap (t : WebrtcTrace) (seq : UInt32) : Prop :=
  seq ≥ t.expectSeq →
    t.lossPkts.toNat + (seq.toNat - t.expectSeq.toNat) < 2 ^ 32 ∧ seq.toNat + 1 < 2 ^ 32

variable {t : WebrtcTrace} {seqs : List ℕ}

theorem noWrap_of_counted (h : Counted t seqs) {seq : UInt32} (hseq : seq.toNat < 2 ^ 32 - 1) :
    NoWrap t seq := by
  obtain ⟨-, hexpect, hloss⟩ := h
  intro hge
  rw [ge_iff_le, UInt32.le_iff_toNat_le] at hge
  omega

/-- The first packet is a record. -/
theorem records_pos {arrivals : List ReceiptPktInfo} (hne : arrivals ≠ [])
    (h : ∀ info ∈ arrivals, 1 ≤ info.seq.toNat) : 0 < (records 0 (sequences arrivals)).length := by
  obtain ⟨info, rest, rfl⟩ := List.exists_cons_of_ne_nil hne
  have hpos : 0 < info.seq.toNat := h info List.mem_cons_self
  rw [sequences, List.map_cons, records, if_pos hpos]
  exact Nat.succ_pos _

section Report

variable (hmax : t.maxSeq = top 0 seqs) (hlt : t.lossPkts.toNat < top 0 seqs)
include hmax hlt

theorem percentage_mem : 0 ≤ 100 * (t.lossPkts.toNat : ℚ) / t.maxSeq ∧
    100 * (t.lossPkts.toNat : ℚ) / t.maxSeq < 100 := by
  have hpos : (0 : ℚ) < (top 0 seqs : ℕ) := Nat.cast_pos.mpr (by omega)
  have hless : (t.lossPkts.toNat : ℚ) < (top 0 seqs : ℕ) := Nat.cast_lt.mpr hlt
  rw [hmax, Int.cast_natCast]
  constructor
  · positivity
  · rw [div_lt_iff₀ hpos]
    linarith

/-- Rounding to nearest does not leave the interval, but it may reach its end. -/
theorem reportedLoss_mem (hbound : top 0 seqs < 2 ^ 32) : 0 ≤ t.reportedLoss ∧ t.reportedLoss ≤ 100 := by
  have hround : ∀ b p : ℕ, 1 < b → 100 < b ^ p → ∀ x : ℚ, 0 ≤ x ∧ x ≤ 100 →
      0 ≤ Rounding.toPrecision b p x ∧ Rounding.toPrecision b p x ≤ 100 :=
    fun b p hb hp x hx => ⟨Rounding.toPrecision_nonneg hb hx.1,
      by exact_mod_cast Rounding.toPrecision_le (n := 100) hb hx.1 (by exact_mod_cast hx.2) hp⟩
  obtain ⟨hnonneg, hless⟩ := percentage_mem hmax hlt
  rw [hmax, Int.cast_natCast] at hnonneg hless
  rw [reportedLoss_eq hmax hbound]
  have hdouble := hround 2 53 (by decide) (by decide) _ ⟨hnonneg, hless.le⟩
  exact hround 10 6 (by decide) (by decide) _ (hround 2 24 (by decide) (by decide) _ hdouble)

end Report

/-- Half a unit of `float` at 100 is `2 ^ (-18)`. -/
theorem printed_eq_100 {x : ℚ} (hge : 100 - 1 / 2 ^ 19 ≤ x) (hle : x ≤ 100) :
    printed (toFloat (toDouble x)) = 100 := by
  have hulp : ∀ (p : ℕ) (y : ℚ), 64 ≤ y → y < 128 → Rounding.ulp 2 p y = 2 ^ (7 - p : ℤ) := by
    intro p y hge hlt
    exact_mod_cast Rounding.ulp_eq (K := ℚ) (b := 2) (e := 6) (by decide) p (by norm_num; exact hge)
      (by norm_num; exact hlt)
  have hdouble : |toDouble x - x| ≤ 1 / 2 ^ 47 := by
    have herror := Rounding.abs_toPrecision_sub_le (b := 2) (by decide) 53 x
    rw [hulp 53 x (by linarith) (by linarith)] at herror
    exact herror.trans (by norm_num)
  obtain ⟨hlow, hhigh⟩ := abs_le.mp hdouble
  have hfloat : toFloat (toDouble x) = (100 : ℕ) := by
    apply Rounding.toPrecision_eq (by decide) (by linarith) (by norm_num; linarith)
    rw [hulp 24 _ (by linarith) (by linarith), abs_lt]
    constructor <;> norm_num <;> linarith
  rw [hfloat]
  exact_mod_cast Rounding.toPrecision_natCast (K := ℚ) (b := 10) (p := 6) (n := 100) (by decide) (by decide)

/-- The registers have a closed form, and nothing wraps. The percentage is below 100, and what is
reported of it at most 100. -/
theorem loss_registers (flag : UInt8) (arrivals : List ReceiptPktInfo)
    (h : ∀ info ∈ arrivals, 1 ≤ info.seq.toNat ∧ info.seq.toNat < 2 ^ 32 - 1) :
    (received flag arrivals).maxSeq = top 0 (sequences arrivals) ∧
      (received flag arrivals).expectSeq.toNat = top 0 (sequences arrivals) + 1 ∧
      ((received flag arrivals).lossPkts.toNat : ℤ) =
        top 0 (sequences arrivals) - (records 0 (sequences arrivals)).length ∧
      (∀ as info, as ++ [info] <+: arrivals → NoWrap (received flag as) info.seq) ∧
      (arrivals ≠ [] →
        (received flag arrivals).lossPkts.toNat < (received flag arrivals).maxSeq ∧
        0 ≤ 100 * ((received flag arrivals).lossPkts.toNat : ℚ) / (received flag arrivals).maxSeq ∧
        100 * ((received flag arrivals).lossPkts.toNat : ℚ) / (received flag arrivals).maxSeq < 100 ∧
        0 ≤ (received flag arrivals).reportedLoss ∧ (received flag arrivals).reportedLoss ≤ 100) ∧
      (missing (sequences arrivals)).card ≤ (received flag arrivals).lossPkts.toNat ∧
      ((∀ k, ¬ Overtaken (sequences arrivals) k) →
        (received flag arrivals).lossPkts.toNat = (missing (sequences arrivals)).card) := by
  obtain ⟨hmax, hexpect, hloss⟩ := counted_received flag fun info hi => (h info hi).2
  have hcard := card_missing_add_overtaken_add_records (sequences arrivals)
  refine ⟨hmax, hexpect, by omega, fun as info hpre => ?_, fun hne => ?_, by omega, fun hnone => ?_⟩
  · have hmem : ∀ i ∈ as ++ [info], i.seq.toNat < 2 ^ 32 - 1 := fun i hi =>
      (h i (hpre.subset hi)).2
    exact noWrap_of_counted (counted_received flag fun i hi => hmem i (List.mem_append_left _ hi))
      (hmem info (by simp))
  · have hrecords := records_pos hne fun info hi => (h info hi).1
    have hlt : (received flag arrivals).lossPkts.toNat < top 0 (sequences arrivals) := by omega
    have hbound : top 0 (sequences arrivals) < 2 ^ 32 := by
      have := (received flag arrivals).expectSeq.toNat_lt
      omega
    obtain ⟨hnonneg, hless⟩ := percentage_mem hmax hlt
    exact ⟨by omega, hnonneg, hless, reportedLoss_mem hmax hlt hbound⟩
  · have hempty : overtaken (sequences arrivals) = ∅ := by
      rw [overtaken, Finset.filter_eq_empty_iff]
      exact fun k _ => hnone k
    rw [hempty, Finset.card_empty] at hcard
    omega

/-- Packets 1, 4 and 3. -/
theorem loss_registers_of_one_late_packet :
    ((received 0 [⟨10, 1, 5⟩, ⟨20, 4, 5⟩, ⟨30, 3, 5⟩]).lossPkts.toNat : ℤ) = 4 - 2 ∧
      (missing [1, 4, 3]).card ≤ (received 0 [⟨10, 1, 5⟩, ⟨20, 4, 5⟩, ⟨30, 3, 5⟩]).lossPkts.toNat := by
  obtain ⟨-, -, hloss, -, -, hmissing, -⟩ :=
    loss_registers 0 [⟨10, 1, 5⟩, ⟨20, 4, 5⟩, ⟨30, 3, 5⟩] (by decide)
  exact ⟨hloss, hmissing⟩

/-- Packet `2 ^ 32 - 2` alone: all but one of that many are lost, and 100 is reported. -/
theorem loss_of_all_but_one_is_reported_as_100 :
    ¬ ∀ (flag : UInt8) (arrivals : List ReceiptPktInfo),
      (∀ info ∈ arrivals, 1 ≤ info.seq.toNat ∧ info.seq.toNat < 2 ^ 32 - 1) → arrivals ≠ [] →
      0 ≤ (received flag arrivals).reportedLoss ∧ (received flag arrivals).reportedLoss < 100 := by
  intro hall
  obtain ⟨-, hlt⟩ := hall 0 [⟨10, 0xFFFFFFFE, 5⟩] (by decide) (by decide)
  have hcounted : Counted (received 0 [⟨10, 0xFFFFFFFE, 5⟩]) (sequences [⟨10, 0xFFFFFFFE, 5⟩]) :=
    counted_received 0 (by decide)
  have hloss : (received 0 [⟨10, 0xFFFFFFFE, 5⟩]).lossPkts.toNat = 4294967293 := by decide
  have htop : top 0 (sequences [⟨10, 0xFFFFFFFE, 5⟩]) = 4294967294 := by decide
  rw [reportedLoss_eq hcounted.maxSeq (by decide), hloss, htop,
    printed_eq_100 (by norm_num) (by norm_num)] at hlt
  exact lt_irrefl _ hlt

end WebrtcTrace

end WebrtcGccNs3.Wire
