import Mathlib.Data.Int.Log
import Mathlib.Algebra.Order.Round
import Mathlib.Tactic.Linarith
import Mathlib.Tactic.Ring

/-!
# Rounding to a number of digits

Round to nearest, ties to even: to an integer, and to `p` digits in base `b`, which is
binary floating point for `b = 2` and decimal output for `b = 10`. The exponent is not
bounded, so this is for values away from a format's ends.
-/
namespace Rounding

variable {K : Type*} [Field K] [LinearOrder K] [IsStrictOrderedRing K] [FloorRing K]

/-- The nearest integer. -/
def nearestEven (x : K) : ℤ :=
  if Int.fract x < 1 / 2 ∨ Int.fract x = 1 / 2 ∧ Even ⌊x⌋ then ⌊x⌋ else ⌊x⌋ + 1

/-- The unit in the last of `p` digits. -/
def ulp (b p : ℕ) (x : K) : K := (b : K) ^ (Int.log b x + 1 - p)

def toPrecision (b p : ℕ) (x : K) : K := nearestEven (x / ulp b p x) * ulp b p x

section Nearest

variable {x : K} {n : ℤ}

theorem nearestEven_le (h : x ≤ n) : nearestEven x ≤ n := by
  have hfloor : ⌊x⌋ ≤ n := Int.floor_le_iff.mpr (h.trans_lt (lt_add_one _))
  unfold nearestEven
  split
  · exact hfloor
  · rename_i hup
    rcases h.lt_or_eq with hlt | rfl
    · exact Int.floor_lt.mpr hlt
    · simp at hup

omit [IsStrictOrderedRing K] in
theorem le_nearestEven (h : (n : K) ≤ x) : n ≤ nearestEven x := by
  have hfloor : n ≤ ⌊x⌋ := Int.le_floor.mpr h
  unfold nearestEven
  split <;> omega

theorem abs_nearestEven_sub_le (x : K) : |nearestEven x - x| ≤ 1 / 2 := by
  have hsplit := Int.floor_add_fract x
  have hnonneg := Int.fract_nonneg x
  have hlt := Int.fract_lt_one x
  rw [abs_le]
  unfold nearestEven
  split
  · rename_i hdown
    have hle : Int.fract x ≤ 1 / 2 := by
      rcases hdown with h | h
      · exact h.le
      · exact h.1.le
    constructor <;> linarith
  · rename_i hup
    have hge : 1 / 2 ≤ Int.fract x := not_lt.mp fun h => hup (Or.inl h)
    push_cast
    constructor <;> linarith

theorem nearestEven_eq (h : |x - n| < 1 / 2) : nearestEven x = n := by
  have herror := abs_nearestEven_sub_le x
  rw [abs_le] at herror
  rw [abs_lt] at h
  have hlt : ((nearestEven x - n : ℤ) : K) < 1 := by
    push_cast
    linarith
  have hgt : (-1 : K) < ((nearestEven x - n : ℤ) : K) := by
    push_cast
    linarith
  have hlt : nearestEven x - n < 1 := by exact_mod_cast hlt
  have hgt : -1 < nearestEven x - n := by exact_mod_cast hgt
  omega

theorem nearestEven_mono {y : K} (h : x ≤ y) : nearestEven x ≤ nearestEven y := by
  rcases (Int.floor_mono h).lt_or_eq with hlt | hsame
  · calc nearestEven x ≤ ⌊x⌋ + 1 := nearestEven_le (by exact_mod_cast (Int.lt_floor_add_one x).le)
      _ ≤ ⌊y⌋ := hlt
      _ ≤ nearestEven y := le_nearestEven (Int.floor_le y)
  · have hfract : Int.fract x ≤ Int.fract y := by
      rw [Int.fract, Int.fract, hsame]
      exact sub_le_sub_right h _
    unfold nearestEven
    rw [hsame]
    split
    · split <;> omega
    · rename_i hup
      have hup' : ¬ (Int.fract y < 1 / 2 ∨ Int.fract y = 1 / 2 ∧ Even ⌊y⌋) := by
        rintro (hlt | ⟨heq, heven⟩)
        · exact hup (Or.inl (hfract.trans_lt hlt))
        · rcases (hfract.trans heq.le).lt_or_eq with hlt | hhalf
          · exact hup (Or.inl hlt)
          · exact hup (Or.inr ⟨hhalf, heven⟩)
      rw [if_neg hup']

end Nearest

section Precision

variable {b p n : ℕ} {x : K}

theorem ulp_pos (hb : 1 < b) (p : ℕ) (x : K) : 0 < ulp b p x :=
  zpow_pos (Nat.cast_pos.mpr (by omega)) _

theorem ulp_eq (hb : 1 < b) {e : ℤ} (p : ℕ) (hle : (b : K) ^ e ≤ x) (hlt : x < (b : K) ^ (e + 1)) :
    ulp b p x = (b : K) ^ (e + 1 - p) := by
  have hpos : 0 < x := (zpow_pos (Nat.cast_pos.mpr (by omega)) e).trans_le hle
  have hge := (Int.zpow_le_iff_le_log hb hpos).mp hle
  have hlog := (Int.lt_zpow_iff_log_lt hb hpos).mp hlt
  rw [ulp, show Int.log b x = e by omega]

theorem abs_toPrecision_sub_le (hb : 1 < b) (p : ℕ) (x : K) :
    |toPrecision b p x - x| ≤ ulp b p x / 2 := by
  have hpos := ulp_pos hb p x
  have herror := abs_nearestEven_sub_le (x / ulp b p x)
  have hfactor : toPrecision b p x - x =
      (nearestEven (x / ulp b p x) - x / ulp b p x) * ulp b p x := by
    rw [sub_mul, div_mul_cancel₀ x hpos.ne']
    rfl
  rw [hfactor, abs_mul, abs_of_pos hpos]
  calc |(nearestEven (x / ulp b p x) : K) - x / ulp b p x| * ulp b p x ≤ 1 / 2 * ulp b p x :=
        mul_le_mul_of_nonneg_right herror hpos.le
    _ = ulp b p x / 2 := by ring

@[simp] theorem toPrecision_zero (b p : ℕ) : toPrecision b p (0 : K) = 0 := by
  have hzero : nearestEven (0 : K) = 0 := nearestEven_eq (by simp)
  simp [toPrecision, hzero]

theorem toPrecision_nonneg (hb : 1 < b) (h : 0 ≤ x) : 0 ≤ toPrecision b p x := by
  have hpos := ulp_pos hb p x
  have hle : 0 ≤ nearestEven (x / ulp b p x) :=
    le_nearestEven (by simpa using div_nonneg h hpos.le)
  exact mul_nonneg (Int.cast_nonneg hle) hpos.le

/-- Below `b ^ p` the unit divides the integers. -/
theorem exists_mul_ulp (hb : 1 < b) (h : 0 < x) (hlt : x < (b : K) ^ p) (n : ℕ) :
    ∃ m : ℤ, (n : K) = m * ulp b p x := by
  have hlog : Int.log b x < p := by
    rw [← Int.lt_zpow_iff_log_lt hb h, zpow_natCast]
    exact hlt
  obtain ⟨k, hk⟩ : ∃ k : ℕ, (p : ℤ) - 1 - Int.log b x = k := ⟨_, (Int.toNat_of_nonneg (by omega)).symm⟩
  have hne : (b : K) ≠ 0 := Nat.cast_ne_zero.mpr (by omega)
  have hulp : ulp b p x = ((b : K) ^ k)⁻¹ := by
    rw [ulp, ← zpow_natCast, ← zpow_neg]
    congr 1
    omega
  refine ⟨n * (b : ℤ) ^ k, ?_⟩
  rw [hulp]
  push_cast
  rw [mul_assoc, mul_inv_cancel₀ (pow_ne_zero k hne), mul_one]

theorem toPrecision_le (hb : 1 < b) (h : 0 ≤ x) (hle : x ≤ n) (hn : n < b ^ p) :
    toPrecision b p x ≤ n := by
  rcases h.eq_or_lt with rfl | h
  · exact (toPrecision_zero b p).trans_le (Nat.cast_nonneg n)
  have hpos := ulp_pos hb p x
  obtain ⟨m, hm⟩ := exists_mul_ulp hb h (hle.trans_lt (by exact_mod_cast hn)) n
  rw [hm] at hle ⊢
  have hnearest : nearestEven (x / ulp b p x) ≤ m := nearestEven_le ((div_le_iff₀ hpos).mpr hle)
  exact mul_le_mul_of_nonneg_right (Int.cast_le.mpr hnearest) hpos.le

/-- A value nearer to an integer than half a unit. -/
theorem toPrecision_eq (hb : 1 < b) (h : 0 < x) (hlt : x < (b : K) ^ p)
    (hnear : |x - n| < ulp b p x / 2) : toPrecision b p x = n := by
  have hpos := ulp_pos hb p x
  obtain ⟨m, hm⟩ := exists_mul_ulp hb h hlt n
  rw [hm] at hnear ⊢
  have hscaled : |x / ulp b p x - m| < 1 / 2 := by
    have hfactor : x / ulp b p x - m = (x - m * ulp b p x) / ulp b p x := by
      rw [sub_div, mul_div_cancel_right₀ _ hpos.ne']
    rw [hfactor, abs_div, abs_of_pos hpos, div_lt_iff₀ hpos]
    linarith
  rw [toPrecision, nearestEven_eq hscaled]

theorem toPrecision_natCast (hb : 1 < b) (hn : n < b ^ p) : toPrecision b p (n : K) = n := by
  rcases Nat.eq_zero_or_pos n with rfl | hpos
  · rw [Nat.cast_zero, toPrecision_zero]
  · apply toPrecision_eq hb (Nat.cast_pos.mpr hpos) (by exact_mod_cast hn)
    rw [sub_self, abs_zero]
    exact half_pos (ulp_pos hb p _)

/-- Shifting by a digit is exact. -/
theorem toPrecision_mul_base (hb : 1 < b) (p : ℕ) (h : 0 < x) :
    toPrecision b p ((b : K) * x) = b * toPrecision b p x := by
  have hpos : (0 : K) < b := Nat.cast_pos.mpr (by omega)
  have hulp : ulp b p ((b : K) * x) = b * ulp b p x := by
    rw [ulp_eq hb (e := Int.log b x + 1) p, ulp, ← zpow_one_add₀ hpos.ne']
    · congr 1
      ring
    · rw [add_comm, zpow_one_add₀ hpos.ne']
      exact mul_le_mul_of_nonneg_left (Int.zpow_log_le_self hb h) hpos.le
    · rw [add_comm, zpow_one_add₀ hpos.ne']
      exact mul_lt_mul_of_pos_left (Int.lt_zpow_succ_log_self hb x) hpos
  rw [toPrecision, hulp, mul_div_mul_left _ _ hpos.ne', toPrecision]
  ring

theorem toPrecision_mono (hb : 1 < b) (hp : 0 < p) {y : K} (h : 0 ≤ x) (hle : x ≤ y) :
    toPrecision b p x ≤ toPrecision b p y := by
  rcases h.eq_or_lt with rfl | h
  · exact (toPrecision_zero b p).trans_le (toPrecision_nonneg hb hle)
  have hpos : (0 : K) < b := Nat.cast_pos.mpr (by omega)
  rcases (Int.log_mono_right h hle).eq_or_lt with hsame | hless
  · have hulp : ulp b p x = ulp b p y := by rw [ulp, hsame, ulp]
    rw [toPrecision, toPrecision, hulp]
    have hscaled := div_le_div_of_nonneg_right hle (ulp_pos hb p y).le
    exact mul_le_mul_of_nonneg_right (Int.cast_le.mpr (nearestEven_mono hscaled)) (ulp_pos hb p y).le
  -- a power of the base is between them
  · have hlow : toPrecision b p x ≤ (b : K) ^ (Int.log b x + 1) := by
      have hsplit : (b : K) ^ (Int.log b x + 1) = ((b ^ p : ℕ) : ℤ) * ulp b p x := by
        rw [ulp, Int.cast_natCast, Nat.cast_pow, ← zpow_natCast, ← zpow_add₀ hpos.ne']
        congr 1
        ring
      have hlt := (Int.lt_zpow_succ_log_self hb x).le
      rw [hsplit, ← div_le_iff₀ (ulp_pos hb p x)] at hlt
      rw [hsplit]
      exact mul_le_mul_of_nonneg_right (Int.cast_le.mpr (nearestEven_le hlt)) (ulp_pos hb p x).le
    have hhigh : (b : K) ^ Int.log b y ≤ toPrecision b p y := by
      have hsplit : (b : K) ^ Int.log b y = ((b ^ (p - 1) : ℕ) : ℤ) * ulp b p y := by
        rw [ulp, Int.cast_natCast, Nat.cast_pow, ← zpow_natCast, ← zpow_add₀ hpos.ne']
        congr 1
        omega
      have hge := Int.zpow_log_le_self hb (h.trans_le hle)
      rw [hsplit, ← le_div_iff₀ (ulp_pos hb p y)] at hge
      rw [hsplit]
      exact mul_le_mul_of_nonneg_right (Int.cast_le.mpr (le_nearestEven hge)) (ulp_pos hb p y).le
    calc toPrecision b p x ≤ (b : K) ^ (Int.log b x + 1) := hlow
      _ ≤ (b : K) ^ Int.log b y := zpow_le_zpow_right₀ (by exact_mod_cast hb.le) hless
      _ ≤ toPrecision b p y := hhigh

end Precision

end Rounding
