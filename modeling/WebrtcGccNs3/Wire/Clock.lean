import WebrtcGccNs3.Wire.Time
import Mathlib.Data.Rat.Floor
import Mathlib.Algebra.Order.Round
import Mathlib.Data.Int.ModEq
import Mathlib.Tactic.Ring

/-!
# WebrtcSimulationClock

webrtc-clock.cc gives libwebrtc the simulator's clock. `rtc::TimeMicros` and
`rtc::TimeMillis` cut it to microseconds and milliseconds. `Timestamp::ms` and
`NtpTime::ToMs` round to the nearest millisecond. The code computes the fraction of an
NTP time in `double`, and it is exact here. `kNtpJan1970` is a constant of libwebrtc.
-/
namespace WebrtcGccNs3.Wire

structure NtpTime where
  seconds : UInt32
  fractions : UInt32

def NtpTime.toMs (t : NtpTime) : Int :=
  1000 * t.seconds.toNat + round ((t.fractions.toNat : ℚ) * 1000 / 2 ^ 32)

def kMagicNtpFractionalUnit : ℚ := 2 ^ 32

namespace WebrtcSimulationClock

def timeMillis (now : Time) : Int := now.tdiv 1000000

def timeMicros (now : Time) : Int := now.tdiv 1000

/-- `CurrentTime`, in microseconds. -/
def currentTime (now : Time) : Int := timeMicros now

/-- `CurrentTime().ms()` -/
def timeInMilliseconds (now : Time) : Int := round ((currentTime now : ℚ) / 1000)

def currentNtpTime (kNtpJan1970 : UInt32) (now : Time) : NtpTime :=
  let nowMs := timeMillis now
  { seconds := UInt32.ofInt (nowMs.tdiv 1000 + kNtpJan1970.toNat)
    fractions := UInt32.ofInt ⌊(nowMs.tmod 1000 : ℚ) * kMagicNtpFractionalUnit / 1000⌋ }

def currentNtpInMilliseconds (kNtpJan1970 : UInt32) (now : Time) : Int :=
  timeInMilliseconds now + 1000 * kNtpJan1970.toNat

/-- Rounding an exact quotient, in integers. -/
theorem round_div (a : Int) (d : ℕ) (hd : 0 < d) :
    round ((a : ℚ) / d) = (2 * a + d) / ((2 * d : ℕ) : Int) := by
  have hne : (d : ℚ) ≠ 0 := Nat.cast_ne_zero.mpr hd.ne'
  have hquot : (a : ℚ) / d + 1 / 2 = ((2 * a + d : Int) : ℚ) / ((2 * d : ℕ) : ℚ) := by
    push_cast
    field_simp
  rw [round_eq, hquot, Rat.floor_intCast_div_natCast]

theorem timeInMilliseconds_eq (n : ℕ) : timeInMilliseconds n = (n / 1000 + 500) / 1000 := by
  have hmicros : currentTime n = n / 1000 := by
    show (n : Int).tdiv 1000 = n / 1000
    exact Int.tdiv_eq_ediv_of_nonneg (Int.natCast_nonneg n)
  have hround := round_div (currentTime n) 1000 (by decide)
  rw [timeInMilliseconds, ← Nat.cast_ofNat (R := ℚ), hround, hmicros]
  push_cast
  omega

/-- A millisecond survives as a fraction of 32 bits. -/
theorem round_fraction {ms : Int} (hge : 0 ≤ ms) (hlt : ms < 1000) :
    round (((UInt32.ofInt ⌊(ms : ℚ) * kMagicNtpFractionalUnit / 1000⌋).toNat : ℚ) * 1000 / 2 ^ 32) = ms := by
  have hfloor : ⌊(ms : ℚ) * kMagicNtpFractionalUnit / 1000⌋ = ms * 2 ^ 32 / 1000 := by
    have hcast := Rat.floor_intCast_div_natCast (ms * 2 ^ 32) 1000
    push_cast at hcast
    exact hcast
  rw [hfloor]
  obtain ⟨f, hf⟩ : ∃ f, (UInt32.ofInt (ms * 2 ^ 32 / 1000)).toNat = f := ⟨_, rfl⟩
  have hfractions : (f : Int) = ms * 2 ^ 32 / 1000 := by
    rw [← hf, UInt32_toNat_ofInt]
    exact Int.emod_eq_of_lt (by omega) (by omega)
  have hround : round ((f : ℚ) * 1000 / 2 ^ 32) = (2 * (f * 1000) + 2 ^ 32) / (2 * 2 ^ 32 : Int) := by
    have hcast := round_div (f * 1000) (2 ^ 32) (by decide)
    push_cast at hcast
    exact hcast
  rw [hf, hround]
  omega

theorem toMs_currentNtpTime (kNtpJan1970 : UInt32) (n : ℕ) :
    (currentNtpTime kNtpJan1970 n).toMs =
      1000 * (((n / 1000000 / 1000 : ℕ) + kNtpJan1970.toNat : Int) % 2 ^ 32) + (n / 1000000 % 1000 : ℕ) := by
  have hmillis : timeMillis n = (n / 1000000 : ℕ) := Int.tdiv_eq_ediv_of_nonneg (Int.natCast_nonneg n)
  have hseconds : (timeMillis n).tdiv 1000 = (n / 1000000 / 1000 : ℕ) := by
    rw [hmillis]
    exact Int.tdiv_eq_ediv_of_nonneg (Int.natCast_nonneg _)
  have hrest : (timeMillis n).tmod 1000 = (n / 1000000 % 1000 : ℕ) := by
    rw [hmillis]
    exact Int.tmod_eq_emod_of_nonneg (Int.natCast_nonneg _)
  rw [NtpTime.toMs, currentNtpTime, hseconds, UInt32_toNat_ofInt, hrest]
  congr 1
  exact round_fraction (Int.natCast_nonneg _) (by omega)

/-- The two readings agree, up to the wrap of the seconds, exactly in the first half of each
millisecond: one of them truncates to milliseconds, and the other rounds. -/
theorem ntp_readings_agree_iff (kNtpJan1970 : UInt32) (n : ℕ) :
    (currentNtpTime kNtpJan1970 n).toMs ≡ currentNtpInMilliseconds kNtpJan1970 n [ZMOD 1000 * 2 ^ 32] ↔
      n / 1000 % 1000 < 500 := by
  rw [toMs_currentNtpTime, currentNtpInMilliseconds, timeInMilliseconds_eq, Int.ModEq]
  omega

/-- Half a millisecond after the start. -/
theorem ntp_readings_differ_at_half_a_millisecond :
    ¬ ∀ (kNtpJan1970 : UInt32) (n : ℕ),
      (currentNtpTime kNtpJan1970 n).toMs ≡ currentNtpInMilliseconds kNtpJan1970 n
        [ZMOD 1000 * 2 ^ 32] := by
  intro hall
  have hagree := hall 2208988800 500000
  rw [toMs_currentNtpTime, currentNtpInMilliseconds, timeInMilliseconds_eq] at hagree
  revert hagree
  decide

end WebrtcSimulationClock

end WebrtcGccNs3.Wire
