import Mathlib.Order.Defs.LinearOrder
import Mathlib.Order.Lattice

/-!
# Timestamps of the simulated clock

libwebrtc's `Timestamp` is a count of microseconds with two infinities. Runners
advertise their next run time in it, and the controller compares those values.
-/
namespace WebrtcGccNs3.Sim

inductive Timestamp where
  | minusInfinity
  | micros (us : Int)
  | plusInfinity
  deriving DecidableEq, Repr

namespace Timestamp

def ble : Timestamp → Timestamp → Bool
  | minusInfinity, _ => true
  | _, plusInfinity => true
  | micros a, micros b => decide (a ≤ b)
  | _, _ => false

instance : LE Timestamp := ⟨fun a b => ble a b = true⟩

theorem le_def (a b : Timestamp) : a ≤ b ↔ ble a b = true := Iff.rfl

instance : DecidableLE Timestamp := fun a b => inferInstanceAs (Decidable (ble a b = true))

instance : LinearOrder Timestamp where
  le_refl a := by cases a <;> simp [le_def, ble]
  le_trans a b c := by
    cases a <;> cases b <;> cases c <;> simp [le_def, ble]
    exact Int.le_trans
  le_antisymm a b := by
    cases a <;> cases b <;> simp [le_def, ble]
    exact Int.le_antisymm
  le_total a b := by
    cases a <;> cases b <;> simp [le_def, ble]
    exact Int.le_total _ _
  toDecidableLE := inferInstance

instance : Inhabited Timestamp := ⟨plusInfinity⟩

@[simp] theorem micros_le_micros {a b : Int} : micros a ≤ micros b ↔ a ≤ b := by
  simp [le_def, ble]

@[simp] theorem minusInfinity_le (a : Timestamp) : minusInfinity ≤ a := by
  cases a <;> simp [le_def, ble]

@[simp] theorem le_plusInfinity (a : Timestamp) : a ≤ plusInfinity := by
  cases a <;> simp [le_def, ble]

@[simp] theorem not_plusInfinity_le_micros {a : Int} : ¬ plusInfinity ≤ micros a := by
  simp [le_def, ble]

theorem plusInfinity_le {a : Timestamp} : plusInfinity ≤ a ↔ a = plusInfinity := by
  cases a <;> simp [le_def, ble]

/-- `Timestamp + TimeDelta::Millis(ms)`. The infinities absorb a finite offset. -/
def plusMillis : Timestamp → Int → Timestamp
  | minusInfinity, _ => minusInfinity
  | micros us, ms => micros (us + 1000 * ms)
  | plusInfinity, _ => plusInfinity

@[simp] theorem plusMillis_micros (us ms : Int) :
    (micros us).plusMillis ms = micros (us + 1000 * ms) := rfl

/-- `Timestamp + TimeDelta::Micros(us)`. -/
def plusMicros : Timestamp → Int → Timestamp
  | minusInfinity, _ => minusInfinity
  | micros us, delta => micros (us + delta)
  | plusInfinity, _ => plusInfinity

theorem le_plusMicros (t : Timestamp) {us : Int} (h : 0 ≤ us) : t ≤ t.plusMicros us := by
  cases t with
  | minusInfinity | plusInfinity => exact le_refl _
  | micros us' => rw [plusMicros, micros_le_micros]; omega

/-- A delay that is not negative does not move a target before its origin. -/
theorem le_plusMillis (t : Timestamp) {ms : Int} (h : 0 ≤ ms) : t ≤ t.plusMillis ms := by
  cases t with
  | minusInfinity => exact le_refl _
  | micros us => rw [plusMillis_micros, micros_le_micros]; omega
  | plusInfinity => exact le_refl _

end Timestamp

end WebrtcGccNs3.Sim
