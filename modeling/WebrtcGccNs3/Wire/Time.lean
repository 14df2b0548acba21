import Mathlib.Data.Int.Basic
import Mathlib.Algebra.Group.Int.Defs

/-!
# ns-3 times

A `Time` is a count of nanoseconds. Its conversions truncate, and so do those to the
fixed-width integers that the code keeps times in.
-/
namespace WebrtcGccNs3.Wire

theorem UInt64_toNat_ofInt (x : Int) : ((UInt64.ofInt x).toNat : Int) = x % 2 ^ 64 := by
  rw [UInt64.ofInt, UInt64.toNat_ofNat']
  omega

theorem UInt32_toNat_ofInt (x : Int) : ((UInt32.ofInt x).toNat : Int) = x % 2 ^ 32 := by
  rw [UInt32.ofInt, UInt32.toNat_ofNat']
  omega

theorem UInt32_ofInt_toNat (x : UInt32) : UInt32.ofInt x.toNat = x := by
  apply UInt32.toNat.inj
  have hcast := UInt32_toNat_ofInt x.toNat
  have hlt := x.toNat_lt
  omega

abbrev Time := Int

namespace Time

def getMicroSeconds (t : Time) : Int := t.tdiv 1000

def getMilliSeconds (t : Time) : Int := t.tdiv 1000000

def milliSeconds (ms : Int) : Time := ms * 1000000

/-- Whole seconds, as the code takes them from the milliseconds. -/
def wholeSeconds (t : Time) : Int := t.getMilliSeconds.tdiv 1000

theorem getMilliSeconds_of_nonneg {t : Int} (h : 0 ≤ t) : getMilliSeconds t = t / 1000000 :=
  Int.tdiv_eq_ediv_of_nonneg h

theorem wholeSeconds_of_nonneg {t : Int} (h : 0 ≤ t) : wholeSeconds t = t / 1000000000 := by
  rw [wholeSeconds, getMilliSeconds_of_nonneg h, Int.tdiv_eq_ediv_of_nonneg (by omega)]
  omega

theorem wholeSeconds_nonneg {t : Int} (h : 0 ≤ t) : 0 ≤ wholeSeconds t := by
  rw [wholeSeconds_of_nonneg h]
  omega

end Time

end WebrtcGccNs3.Wire
