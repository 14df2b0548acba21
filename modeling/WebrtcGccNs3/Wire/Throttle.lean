import WebrtcGccNs3.Lib.Thinning
import WebrtcGccNs3.Wire.Sender
import WebrtcGccNs3.Wire.Trace
import Mathlib.Algebra.Order.Group.Int

/-!
# The two trace throttles

`SendRtp` thins its calls of the bandwidth callback, and `OnReceiptPktInfo` its lines of
one-way delays, to one in 25 ms. Both keep the last time in a register that starts at 0,
and take 0 for "none yet": after a first time 0 they do not wait.
-/
namespace WebrtcGccNs3.Wire

open Thinning

/-- The times chosen are those of the greedy selection, and they are `gap` apart. -/
def SelectsGreedily (gap : Int) (choices : List Bool) (times : List Int) : Prop :=
  choices = greedy gap times ∧ (selected choices times).Pairwise fun s t => s + gap ≤ t

theorem selectsGreedily_iff {gap : Int} {choices : List Bool} {times : List Int} (hgap : 0 < gap)
    (hchoices : choices = registerFrom gap 0 times) (htimes : ∀ t ∈ times, 0 ≤ t) :
    SelectsGreedily gap choices times ↔ ZeroIsApart gap times := by
  have hiff := registerFrom_eq_greedy_iff hgap htimes
  rw [← hchoices] at hiff
  constructor
  · exact fun h => hiff.mp h.1
  · intro hapart
    have heq := hiff.mpr hapart
    exact ⟨heq, heq ▸ pairwise_selected_greedy hgap.le times⟩

def times (nows : List UInt32) : List Int := nows.map fun now => now.toNat

theorem times_nonneg (nows : List UInt32) : ∀ t ∈ times nows, 0 ≤ t := by
  intro t ht
  obtain ⟨now, -, rfl⟩ := List.mem_map.mp ht
  exact Int.natCast_nonneg _

/-! ## Bandwidth -/

namespace WebrtcSender

variable {sender : WebrtcSender} {now : UInt32}

/-- The calls of `SendRtp` at these times that invoke the callback, once it is set. -/
def callsTraced (nows : List UInt32) : List Bool :=
  emissions (fun sender (now : UInt32) => traceRtp sender now.toNat) traced { traceBw := true } nows

/-- After the first test has set the register, the second one does not hold. -/
theorem traceRtp_of_due
    (h : sender.lastTraceTime = 0 ∨ sender.lastTraceTime + kTraceInterval ≤ now.toNat) :
    sender.traceRtp now.toNat = { sender with
      lastTraceTime := now.toNat
      traced := if sender.traceBw then sender.traced ++ [now] else sender.traced } := by
  unfold traceRtp
  rw [UInt32_ofInt_toNat]
  by_cases hzero : sender.lastTraceTime = 0
  · have hnot : ¬ (now.toNat : Int) ≥ now.toNat + kTraceInterval := by simp [kTraceInterval]
    simp [hzero, hnot]
  · have hle : (now.toNat : Int) ≥ sender.lastTraceTime + kTraceInterval := h.resolve_left hzero
    simp [hzero, hle]

theorem traceRtp_of_not_due
    (h : ¬ (sender.lastTraceTime = 0 ∨ sender.lastTraceTime + kTraceInterval ≤ now.toNat)) :
    sender.traceRtp now.toNat = sender := by
  obtain ⟨hzero, hlt⟩ := not_or.mp h
  unfold traceRtp
  rw [UInt32_ofInt_toNat]
  simp [hzero, hlt]

theorem throttles_traceRtp :
    Throttles (fun sender (now : UInt32) => traceRtp sender now.toNat) traced
      (fun now => (now.toNat : Int)) lastTraceTime kTraceInterval fun sender => sender.traceBw = true := by
  constructor
  · exact fun sender now h => h
  · intro sender now h hdue
    show (sender.traceRtp now.toNat).traced ≠ _ ∧ (sender.traceRtp now.toNat).lastTraceTime = _
    rw [traceRtp_of_due hdue]
    exact ⟨by simp [h], rfl⟩
  · intro sender now h hdue
    show (sender.traceRtp now.toNat).traced = _ ∧ (sender.traceRtp now.toNat).lastTraceTime = _
    rw [traceRtp_of_not_due hdue]
    exact ⟨rfl, rfl⟩

theorem callsTraced_eq (nows : List UInt32) :
    callsTraced nows = registerFrom kTraceInterval 0 (times nows) :=
  throttles_traceRtp.emissions_eq rfl nows

end WebrtcSender

/-! ## One-way delays -/

namespace WebrtcTrace

variable {t : WebrtcTrace} {now owd : UInt32} {lines : List (UInt32 × UInt32)}

/-- The packets of which `OnReceiptPktInfo` writes a line, on a fresh object with its files opened. -/
def linesWritten (flag : UInt8) (arrivals : List ReceiptPktInfo) : List Bool :=
  emissions onReceiptPktInfo WebrtcTrace.owd (({} : WebrtcTrace).log flag) arrivals

theorem countLoss_frame (t : WebrtcTrace) (seq : UInt32) : (t.countLoss seq).flag = t.flag ∧
    (t.countLoss seq).owd = t.owd ∧ (t.countLoss seq).lastOutTime = t.lastOutTime := by
  unfold countLoss
  grind

theorem traceOwd_of_due (hflag : t.flag &&& E_WEBRTC_OWD ≠ 0) (hlines : t.owd = some lines)
    (h : t.lastOutTime = 0 ∨ t.lastOutTime + kTraceOwdInterval ≤ now.toNat) :
    t.traceOwd now owd =
      { t with owd := some (lines ++ [(now, owd)]), lastOutTime := now.toNat } := by
  have hdue : t.lastOutTime = 0 ∨ now.toNat - t.lastOutTime ≥ kTraceOwdInterval :=
    h.imp_right le_sub_left_of_add_le
  unfold traceOwd
  simp [hflag, hlines, hdue]

theorem traceOwd_of_not_due (hlines : t.owd = some lines)
    (h : ¬ (t.lastOutTime = 0 ∨ t.lastOutTime + kTraceOwdInterval ≤ now.toNat)) :
    t.traceOwd now owd = t := by
  have hdue : ¬ (t.lastOutTime = 0 ∨ now.toNat - t.lastOutTime ≥ kTraceOwdInterval) :=
    mt (Or.imp_right add_le_of_le_sub_left) h
  unfold traceOwd
  simp [hlines, hdue]

theorem throttles_onReceiptPktInfo :
    Throttles onReceiptPktInfo WebrtcTrace.owd (fun info => (info.now.toNat : Int)) lastOutTime
      kTraceOwdInterval fun t => t.flag &&& E_WEBRTC_OWD ≠ 0 ∧ ∃ lines, t.owd = some lines := by
  have hframe := fun (t : WebrtcTrace) (info : ReceiptPktInfo) =>
    countLoss_frame (t.traceOwd info.now info.owd) info.seq
  constructor
  · rintro t info ⟨hflag, lines, hlines⟩
    obtain ⟨hflag', howd, -⟩ := hframe t info
    rw [onReceiptPktInfo, hflag', howd]
    by_cases hdue : t.lastOutTime = 0 ∨ t.lastOutTime + kTraceOwdInterval ≤ info.now.toNat
    · rw [traceOwd_of_due hflag hlines hdue]
      exact ⟨hflag, _, rfl⟩
    · rw [traceOwd_of_not_due hlines hdue]
      exact ⟨hflag, lines, hlines⟩
  · rintro t info ⟨hflag, lines, hlines⟩ hdue
    obtain ⟨-, howd, hlast⟩ := hframe t info
    rw [onReceiptPktInfo, howd, hlast, traceOwd_of_due hflag hlines hdue, hlines]
    exact ⟨by simp, rfl⟩
  · rintro t info ⟨hflag, lines, hlines⟩ hdue
    obtain ⟨-, howd, hlast⟩ := hframe t info
    rw [onReceiptPktInfo, howd, hlast, traceOwd_of_not_due hlines hdue]
    exact ⟨rfl, rfl⟩

theorem linesWritten_eq {flag : UInt8} (h : flag &&& E_WEBRTC_OWD ≠ 0) (arrivals : List ReceiptPktInfo) :
    linesWritten flag arrivals = registerFrom kTraceOwdInterval 0 (times (arrivals.map (·.now))) := by
  have hopen : (({} : WebrtcTrace).log flag).owd = some [] := if_pos h
  have heq := throttles_onReceiptPktInfo.emissions_eq (s := ({} : WebrtcTrace).log flag)
    ⟨h, _, hopen⟩ arrivals
  rw [linesWritten, heq, times, List.map_map]
  rfl

end WebrtcTrace

/-- Each throttle makes the greedy selection, for any list of times, exactly when its first time is
not 0 or its second one is 25 ms or more. -/
theorem throttles_select_greedily_iff (nows : List UInt32) (flag : UInt8)
    (arrivals : List ReceiptPktInfo) (hflag : flag &&& E_WEBRTC_OWD ≠ 0) :
    (SelectsGreedily 25 (WebrtcSender.callsTraced nows) (times nows) ↔ ZeroIsApart 25 (times nows)) ∧
      (SelectsGreedily 25 (WebrtcTrace.linesWritten flag arrivals) (times (arrivals.map (·.now))) ↔
        ZeroIsApart 25 (times (arrivals.map (·.now)))) :=
  ⟨selectsGreedily_iff (by decide) (WebrtcSender.callsTraced_eq nows) (times_nonneg nows),
    selectsGreedily_iff (by decide) (WebrtcTrace.linesWritten_eq hflag arrivals) (times_nonneg _)⟩

/-- From 1 ms on, with two packets in one millisecond. -/
theorem throttles_from_one_millisecond :
    SelectsGreedily 25 (WebrtcSender.callsTraced [1, 1, 20, 26, 60]) [1, 1, 20, 26, 60] ∧
      SelectsGreedily 25 (WebrtcTrace.linesWritten E_WEBRTC_OWD [⟨1, 1, 9⟩, ⟨20, 2, 9⟩, ⟨26, 3, 9⟩])
        [1, 20, 26] := by
  have h := throttles_select_greedily_iff [1, 1, 20, 26, 60] E_WEBRTC_OWD
    [⟨1, 1, 9⟩, ⟨20, 2, 9⟩, ⟨26, 3, 9⟩] (by decide)
  exact ⟨h.1.mpr fun hzero => absurd hzero (by decide), h.2.mpr fun hzero => absurd hzero (by decide)⟩

/-- At 0 ms and at 5 ms the callback is invoked, and a line is written. -/
theorem throttles_do_not_wait_after_time_zero :
    (¬ ∀ nows : List UInt32, nows.Pairwise (· ≤ ·) →
      SelectsGreedily 25 (WebrtcSender.callsTraced nows) (times nows)) ∧
    ¬ ∀ arrivals : List ReceiptPktInfo,
      SelectsGreedily 25 (WebrtcTrace.linesWritten E_WEBRTC_OWD arrivals) (times (arrivals.map (·.now))) := by
  constructor
  · intro hall
    have hchoices := (hall [0, 5] (by decide)).1
    revert hchoices
    decide
  · intro hall
    have hchoices := (hall [⟨0, 1, 9⟩, ⟨5, 2, 9⟩]).1
    revert hchoices
    decide

end WebrtcGccNs3.Wire
