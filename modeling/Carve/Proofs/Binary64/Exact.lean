import Carve.Binary64
import Mathlib.Algebra.Order.Field.Power
import Mathlib.Data.Rat.Cast.Order
import Mathlib.Tactic.FieldSimp
import Mathlib.Tactic.Linarith
import Mathlib.Tactic.Positivity

namespace Carve.Binary64

/-- How large a number is, its sign left aside.  In rounding, an infinite number stands for the
power of two behind the largest finite one. -/
def magnitude : Binary64 → ℚ
  | .finite _ exponent fraction =>
      significandOf exponent.val fraction.val * 2 ^ scaleOf exponent.val
  | .infinite _ => 2 ^ (1024 : Int)
  | .nan => 0

/-- The exact value of a finite number. -/
def value? (number : Binary64) : Option ℚ :=
  match number with
  | .finite negative _ _ => some (if negative then -number.magnitude else number.magnitude)
  | .infinite _ | .nan => none

theorem zpow_split (base : ℚ) (scale : Int) :
    base ^ scale = base ^ scale.toNat / base ^ (-scale).toNat := by
  rcases Int.le_total 0 scale with nonnegative | nonpositive
  · have below : (-scale).toNat = 0 := by omega
    rw [below, pow_zero, div_one, ← zpow_natCast, Int.toNat_of_nonneg nonnegative]
  · have above : scale.toNat = 0 := by omega
    rw [above, pow_zero, one_div, ← zpow_natCast, ← zpow_neg, Int.toNat_of_nonneg (by omega),
      neg_neg]

theorem pow_mul_zpow (count : Nat) (scale : Int) :
    (2 : ℚ) ^ count * 2 ^ scale = 2 ^ (count + scale) := by
  rw [zpow_add₀ (by norm_num), zpow_natCast]

/-- A significand and a scale, compared with a whole number without fractions. -/
theorem scaled_lt_iff (whole significand : Nat) (scale : Int) :
    (whole : ℚ) < significand * 2 ^ scale ↔
      whole * 2 ^ (-scale).toNat < significand * 2 ^ scale.toNat := by
  have positive : (0 : ℚ) < 2 ^ (-scale).toNat := by positivity
  rw [zpow_split, ← mul_div_assoc, lt_div_iff₀ positive]
  exact_mod_cast Iff.rfl

theorem scaled_eq_iff (whole significand : Nat) (scale : Int) :
    (significand : ℚ) * 2 ^ scale = whole ↔
      significand * 2 ^ scale.toNat = whole * 2 ^ (-scale).toNat := by
  have positive : (2 : ℚ) ^ (-scale).toNat ≠ 0 := by positivity
  rw [zpow_split, ← mul_div_assoc, div_eq_iff positive]
  exact_mod_cast Iff.rfl

variable {number : Binary64} {value : ℚ}

theorem magnitude_nonneg (number : Binary64) : 0 ≤ number.magnitude := by
  cases number with
  | finite negative exponent fraction =>
      exact mul_nonneg (Nat.cast_nonneg _) (zpow_nonneg (by norm_num) _)
  | infinite negative => simp only [magnitude]; positivity
  | nan => exact le_refl 0

/-- Scaled by a power of two, a significand gives a whole number just if the power divides it. -/
theorem scaled_whole_iff (whole significand : Nat) (scale : Int) :
    (significand : ℚ) * 2 ^ scale = whole ↔
      significand % 2 ^ (-scale).toNat = 0 ∧
        significand / 2 ^ (-scale).toNat * 2 ^ scale.toNat = whole := by
  have positive : 0 < 2 ^ (-scale).toNat := Nat.two_pow_pos _
  rw [scaled_eq_iff]
  rcases Int.le_total 0 scale with nonnegative | nonpositive
  · have below : (-scale).toNat = 0 := by omega
    simp [below, Nat.mod_one]
  · have above : scale.toNat = 0 := by omega
    rw [above, pow_zero, Nat.mul_one, Nat.mul_one]
    constructor
    · intro same
      rw [same]
      exact ⟨Nat.mul_mod_left _ _, Nat.mul_div_cancel _ positive⟩
    · intro divides
      obtain ⟨exact, rfl⟩ := divides
      exact (Nat.div_mul_cancel (Nat.dvd_of_mod_eq_zero exact)).symm

theorem toInt?_eq_some {whole : Int} :
    number.toInt? = some whole ↔ number.value? = some (whole : ℚ) := by
  cases number with
  | infinite negative | nan => simp [toInt?, value?]
  | finite negative exponent fraction =>
      have known (size : Nat) :=
        scaled_whole_iff size (significandOf exponent.val fraction.val) (scaleOf exponent.val)
      simp only [toInt?, value?, magnitude]
      split
      · next divides =>
          rw [(known _).mpr ⟨divides, rfl⟩, ← Int.cast_natCast, Option.some.injEq,
            Option.some.injEq]
          cases negative with
          | false => exact Int.cast_inj.symm
          | true =>
              rw [if_pos rfl, if_pos rfl, ← Int.cast_neg]
              exact Int.cast_inj.symm
      · next rest =>
          refine iff_of_false (by simp) fun same => rest ?_
          refine ((known whole.natAbs).mp ?_).1
          have size := congrArg abs (Option.some.inj same)
          have nonnegative := magnitude_nonneg (.finite negative exponent fraction)
          simp only [magnitude] at nonnegative
          rw [Nat.cast_natAbs, Int.cast_abs, ← size]
          cases negative <;> simp [abs_of_nonneg nonnegative]

theorem isNegative_iff (valued : number.value? = some value) :
    number.isNegative = true ↔ value < 0 := by
  cases number with
  | infinite negative | nan => contradiction
  | finite negative exponent fraction =>
      cases valued
      have positive : (0 : ℚ) < 2 ^ scaleOf exponent.val := zpow_pos (by norm_num) _
      have nonzero : 0 < magnitude (.finite negative exponent fraction) ↔
          significandOf exponent.val fraction.val ≠ 0 := by
        simp only [magnitude, mul_pos_iff_of_pos_right positive, Nat.cast_pos, Nat.pos_iff_ne_zero]
      have nonnegative := magnitude_nonneg (.finite negative exponent fraction)
      cases negative with
      | false => simpa [isNegative] using nonnegative
      | true => simpa [isNegative] using nonzero.symm

theorem exceeds_iff (valued : number.value? = some value) (bound : Nat) :
    number.exceeds bound = true ↔ (bound : ℚ) < value := by
  cases number with
  | infinite negative | nan => contradiction
  | finite negative exponent fraction =>
      cases valued
      cases negative with
      | false => simp [exceeds, magnitude, scaled_lt_iff]
      | true =>
          have nonnegative := magnitude_nonneg (.finite true exponent fraction)
          have bounded : (0 : ℚ) ≤ bound := Nat.cast_nonneg bound
          simp only [exceeds, Bool.not_true, Bool.false_and, Bool.false_eq_true, if_true, false_iff]
          linarith

end Carve.Binary64
