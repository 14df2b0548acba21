import WebrtcGccNs3.Wire.Receiver
import Mathlib.Data.Int.ModEq
import Mathlib.Data.List.Chain

/-!
# The loss count across the wrap

The sender counts to `2 ^ 64`, the receiver passes on 32 bits, and `m_expectSeq` is
compared with them as they are. When the packet before a multiple of `2 ^ 32` arrives,
the register wraps with the sequence numbers. When it is lost, the register stays above
the numbers that follow, and they are not counted until they have caught up with it.
-/
namespace WebrtcGccNs3.Wire

namespace WebrtcTrace

/-- The trace after packets with these tags, received at these times in milliseconds. -/
def receivedTags (flag : UInt8) (delivered : List (Int × WebrtcTag)) : WebrtcTrace :=
  received flag (delivered.map fun (milliseconds, tag) => WebrtcReceiver.receiptPktInfo milliseconds tag)

def numbers (delivered : List (Int × WebrtcTag)) : List ℕ := delivered.map (·.2.seq.toNat)

/-- The last number, or 0 before the first. -/
def lastNumber (ns : List ℕ) : ℕ := ns.getLast?.getD 0

/-- In order, from 1 on, with fewer than `2 ^ 31` from one to the next. -/
def InOrder (ns : List ℕ) : Prop := (∀ n ∈ ns, 1 ≤ n) ∧ ns.IsChain fun p q => p < q ∧ q < p + 2 ^ 31

/-- `m_lossPkts` is the number of packets skipped, modulo `2 ^ 32`. -/
def CountsSkipped (t : WebrtcTrace) (ns : List ℕ) : Prop :=
  (t.lossPkts.toNat : ℤ) ≡ lastNumber ns - ns.length [ZMOD 2 ^ 32]

instance (t : WebrtcTrace) (ns : List ℕ) : Decidable (CountsSkipped t ns) :=
  inferInstanceAs (Decidable (_ ≡ _ [ZMOD _]))

/-- The first number is no multiple of `2 ^ 32`, and the number before a multiple is never skipped
between two that are delivered. -/
def BoundariesDelivered (ns : List ℕ) : Prop :=
  (∀ n ∈ ns.head?, ¬ 2 ^ 32 ∣ n) ∧ ns.IsChain fun p q => ∀ k, p < k → k < q → ¬ 2 ^ 32 ∣ k + 1

/-- The expected number, modulo `2 ^ 32`, and the loss are those of the numbers delivered. -/
structure InStep (t : WebrtcTrace) (ns : List ℕ) : Prop where
  expectSeq : t.expectSeq.toNat = (lastNumber ns + 1) % 2 ^ 32
  lossPkts : CountsSkipped t ns

variable {t : WebrtcTrace} {ns : List ℕ} {p q : ℕ} {info : ReceiptPktInfo}

@[simp] theorem lastNumber_nil : lastNumber [] = 0 := rfl

@[simp] theorem lastNumber_append_singleton : lastNumber (ns ++ [q]) = q := by
  simp [lastNumber]

theorem inOrder_append_singleton : InOrder (ns ++ [q]) ↔
    InOrder ns ∧ 1 ≤ q ∧ ∀ p ∈ ns.getLast?, p < q ∧ q < p + 2 ^ 31 := by
  simp only [InOrder, List.isChain_append, List.forall_mem_append]
  simp
  tauto

/-- Whether the truncated number is below the truncated successor of the one before. -/
theorem mod_le_mod_iff (hlt : p < q) (hgap : q < p + 2 ^ 31) :
    (p + 1) % 2 ^ 32 ≤ q % 2 ^ 32 ↔ ∀ k, p < k → k < q → ¬ 2 ^ 32 ∣ k + 1 := by
  constructor
  · rintro hle k hp hq ⟨m, hm⟩
    omega
  · intro hall
    by_contra hgt
    refine hall (2 ^ 32 * (q / 2 ^ 32) - 1) ?_ ?_ ⟨q / 2 ^ 32, ?_⟩ <;> omega

theorem boundariesDelivered_append_singleton (h : InOrder (ns ++ [q])) :
    BoundariesDelivered (ns ++ [q]) ↔
      BoundariesDelivered ns ∧ (lastNumber ns + 1) % 2 ^ 32 ≤ q % 2 ^ 32 := by
  obtain ⟨-, -, hlast⟩ := inOrder_append_singleton.mp h
  rcases List.eq_nil_or_concat' ns with rfl | ⟨ms, p, rfl⟩
  · simp [BoundariesDelivered, Nat.dvd_iff_mod_eq_zero]
    omega
  · obtain ⟨hlt, hgap⟩ := hlast p (by simp)
    have hhead : (ms ++ [p] ++ [q]).head? = (ms ++ [p]).head? := by simp [List.head?_append]
    rw [BoundariesDelivered, hhead, List.isChain_append, lastNumber_append_singleton,
      mod_le_mod_iff hlt hgap, BoundariesDelivered]
    simp [and_assoc]

/-! ## One packet -/

/-- A packet that is not below the expected one. -/
theorem inStep_onReceiptPktInfo (h : InStep t ns) (hseq : info.seq.toNat = q % 2 ^ 32)
    (hge : (lastNumber ns + 1) % 2 ^ 32 ≤ q % 2 ^ 32) :
    InStep (t.onReceiptPktInfo info) (ns ++ [q]) := by
  obtain ⟨hexpect, hloss⟩ := h
  have hreg : info.seq ≥ t.expectSeq := by
    rw [ge_iff_le, UInt32.le_iff_toNat_le, hexpect, hseq]
    exact hge
  obtain ⟨hlossPkts, hexpectSeq⟩ := onReceiptPktInfo_of_ge hreg
  constructor
  · rw [hexpectSeq, lastNumber_append_singleton, UInt32.toNat_add, hseq,
      show (1 : UInt32).toNat = 1 from rfl]
    omega
  · rw [CountsSkipped, Int.ModEq] at hloss ⊢
    rw [hlossPkts, lastNumber_append_singleton, List.length_append, List.length_singleton,
      UInt32.toNat_add, UInt32.toNat_sub_of_le _ _ hreg, hexpect, hseq]
    omega

/-- A packet below the expected one is not counted, so the count would be wrong after it. -/
theorem le_of_countsSkipped (h : InStep t ns) (horder : InOrder (ns ++ [q]))
    (hseq : info.seq.toNat = q % 2 ^ 32)
    (hcounts : CountsSkipped (t.onReceiptPktInfo info) (ns ++ [q])) :
    (lastNumber ns + 1) % 2 ^ 32 ≤ q % 2 ^ 32 := by
  obtain ⟨hexpect, hloss⟩ := h
  by_contra hlt
  have hreg : ¬ info.seq ≥ t.expectSeq := by
    rw [ge_iff_le, UInt32.le_iff_toNat_le, hexpect, hseq]
    exact hlt
  rw [CountsSkipped, Int.ModEq] at hloss hcounts
  rw [(onReceiptPktInfo_of_lt hreg).1, lastNumber_append_singleton, List.length_append,
    List.length_singleton] at hcounts
  obtain ⟨-, hone, hlast⟩ := inOrder_append_singleton.mp horder
  rcases List.eq_nil_or_concat' ns with rfl | ⟨ms, p, rfl⟩
  · simp only [lastNumber_nil, List.length_nil] at hlt hloss hcounts
    omega
  · obtain ⟨hp, hgap⟩ := hlast p (by simp)
    rw [lastNumber_append_singleton] at hlt hloss
    omega

/-! ## Runs -/

variable {flag : UInt8} {delivered : List (Int × WebrtcTag)} {d : Int × WebrtcTag}

theorem receivedTags_append_singleton : receivedTags flag (delivered ++ [d]) =
    (receivedTags flag delivered).onReceiptPktInfo (WebrtcReceiver.receiptPktInfo d.1 d.2) := by
  simp [receivedTags, received]

theorem numbers_append_singleton : numbers (delivered ++ [d]) = numbers delivered ++ [d.2.seq.toNat] := by
  simp [numbers]

theorem toNat_seq (milliseconds : Int) (tag : WebrtcTag) :
    (WebrtcReceiver.receiptPktInfo milliseconds tag).seq.toNat = tag.seq.toNat % 2 ^ 32 :=
  UInt64.toNat_toUInt32 tag.seq

theorem inStep_nil : InStep (receivedTags flag []) [] := ⟨rfl, rfl⟩

theorem inStep_receivedTags (horder : InOrder (numbers delivered))
    (h : BoundariesDelivered (numbers delivered)) :
    InStep (receivedTags flag delivered) (numbers delivered) := by
  induction delivered using List.reverseRecOn with
  | nil => exact inStep_nil
  | append_singleton ds d ih =>
    rw [numbers_append_singleton] at horder h ⊢
    obtain ⟨hbefore, hge⟩ := (boundariesDelivered_append_singleton horder).mp h
    rw [receivedTags_append_singleton]
    exact inStep_onReceiptPktInfo (ih (inOrder_append_singleton.mp horder).1 hbefore)
      (toNat_seq d.1 d.2) hge

theorem countsSkipped_of_prefix {ds : List (Int × WebrtcTag)} (horder : InOrder (numbers delivered))
    (h : BoundariesDelivered (numbers delivered)) (hpre : ds <+: delivered) :
    CountsSkipped (receivedTags flag ds) (numbers ds) := by
  induction delivered using List.reverseRecOn with
  | nil => exact List.prefix_nil.mp hpre ▸ inStep_nil.lossPkts
  | append_singleton es e ih =>
    rcases List.prefix_concat_iff.mp hpre with rfl | hpre
    · exact (inStep_receivedTags horder h).lossPkts
    · rw [numbers_append_singleton] at horder h
      exact ih (inOrder_append_singleton.mp horder).1
        ((boundariesDelivered_append_singleton horder).mp h).1 hpre

theorem boundariesDelivered_of_counts (horder : InOrder (numbers delivered))
    (h : ∀ ds, ds <+: delivered → CountsSkipped (receivedTags flag ds) (numbers ds)) :
    BoundariesDelivered (numbers delivered) := by
  induction delivered using List.reverseRecOn with
  | nil => exact ⟨by simp [numbers], List.isChain_nil⟩
  | append_singleton ds d ih =>
    have hcounts := h _ (List.prefix_refl _)
    rw [numbers_append_singleton] at horder hcounts ⊢
    rw [receivedTags_append_singleton] at hcounts
    have hbefore := ih (inOrder_append_singleton.mp horder).1 fun es hes =>
      h es (hes.trans (List.prefix_append ds [d]))
    have hstep : InStep (receivedTags flag ds) (numbers ds) :=
      inStep_receivedTags (inOrder_append_singleton.mp horder).1 hbefore
    exact (boundariesDelivered_append_singleton horder).mpr
      ⟨hbefore, le_of_countsSkipped hstep horder (toNat_seq d.1 d.2) hcounts⟩

/-- Over packets that are delivered in order, the loss counts those skipped after each of them
exactly when the packets before multiples of `2 ^ 32` are not among the skipped. -/
theorem loss_counts_skipped_iff (flag : UInt8) (delivered : List (Int × WebrtcTag))
    (horder : InOrder (numbers delivered)) :
    (∀ ds, ds <+: delivered → CountsSkipped (receivedTags flag ds) (numbers ds)) ↔
      BoundariesDelivered (numbers delivered) := by
  exact ⟨boundariesDelivered_of_counts horder, fun h ds hpre => countsSkipped_of_prefix horder h hpre⟩

/-- Packet `2 ^ 32 - 1` arrives, and the three after it are lost. -/
theorem loss_after_the_wrap_is_counted :
    CountsSkipped (receivedTags 0 [(1, ⟨4294967295, 1⟩), (2, ⟨4294967299, 1⟩)])
      [4294967295, 4294967299] := by
  have hboundaries : BoundariesDelivered [4294967295, 4294967299] :=
    ⟨by decide, List.isChain_pair.mpr ((mod_le_mod_iff (by decide) (by decide)).mp (by decide))⟩
  exact (loss_counts_skipped_iff 0 [(1, ⟨4294967295, 1⟩), (2, ⟨4294967299, 1⟩)]
    ⟨by decide, by decide⟩).mpr hboundaries _ (List.prefix_refl _)

/-- Packet `2 ^ 32 - 1` is lost, and packet `2 ^ 32` arrives. -/
theorem loss_at_the_wrap_is_not_counted :
    ¬ ∀ (flag : UInt8) (delivered : List (Int × WebrtcTag)), InOrder (numbers delivered) →
      CountsSkipped (receivedTags flag delivered) (numbers delivered) := by
  intro hall
  have hcounts := hall 0 [(1, ⟨4294967294, 1⟩), (2, ⟨4294967296, 1⟩)] ⟨by decide, by decide⟩
  exact absurd hcounts (by decide)

end WebrtcTrace

end WebrtcGccNs3.Wire
