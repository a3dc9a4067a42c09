import Carve.Number

namespace Carve.Number

variable {numerator other denominator magnitude : Nat}

theorem nearest_bounds (numerator denominator : Nat) :
    numerator / denominator ≤ nearest numerator denominator ∧
      nearest numerator denominator ≤ numerator / denominator + 1 := by
  simp only [nearest]
  split
  · omega
  · split <;> omega

theorem nearest_mono (denominator : Nat) (ordered : numerator ≤ other) :
    nearest numerator denominator ≤ nearest other denominator := by
  have quotients : numerator / denominator ≤ other / denominator := Nat.div_le_div_right ordered
  rcases Nat.lt_or_eq_of_le quotients with smaller | same
  · obtain ⟨_, upper⟩ := nearest_bounds numerator denominator
    obtain ⟨lower, _⟩ := nearest_bounds other denominator
    omega
  · -- The remainders are ordered as the numbers are, and one half decides for both.
    have whole := Nat.div_add_mod numerator denominator
    have otherWhole := Nat.div_add_mod other denominator
    rw [same] at whole
    have remainders : numerator % denominator ≤ other % denominator := by omega
    simp only [nearest, same]
    grind

/-- A magnitude above 2^53 stays between the powers of two around it. -/
theorem roundMagnitude_bounds (large : 2 ^ 53 < magnitude) :
    2 ^ magnitude.log2 ≤ roundMagnitude magnitude ∧
      roundMagnitude magnitude ≤ 2 ^ (magnitude.log2 + 1) := by
  have nonzero : magnitude ≠ 0 := by omega
  have exponent : 53 ≤ magnitude.log2 := (Nat.le_log2 nonzero).mpr (Nat.le_of_lt large)
  obtain ⟨shift, shifted⟩ : ∃ shift, magnitude.log2 = 52 + shift := ⟨magnitude.log2 - 52, by omega⟩
  have lower : 2 ^ 52 * 2 ^ shift ≤ magnitude := by
    rw [← Nat.pow_add, ← shifted]
    exact Nat.log2_self_le nonzero
  have upper : magnitude < 2 ^ 53 * 2 ^ shift := by
    rw [← Nat.pow_add, show 53 + shift = magnitude.log2 + 1 by omega]
    exact Nat.lt_log2_self
  have positive : 0 < 2 ^ shift := Nat.two_pow_pos shift
  have least : 2 ^ 52 ≤ magnitude / 2 ^ shift := (Nat.le_div_iff_mul_le positive).mpr lower
  have greatest : magnitude / 2 ^ shift < 2 ^ 53 := (Nat.div_lt_iff_lt_mul positive).mpr upper
  have rounded : roundMagnitude magnitude = nearest magnitude (2 ^ shift) * 2 ^ shift := by
    rw [roundMagnitude, if_neg (by omega), shifted, Nat.add_sub_cancel_left]
  obtain ⟨above, below⟩ := nearest_bounds magnitude (2 ^ shift)
  rw [rounded]
  constructor
  · rw [shifted, Nat.pow_add]
    exact Nat.mul_le_mul_right _ (Nat.le_trans least above)
  · rw [show magnitude.log2 + 1 = 53 + shift by omega, Nat.pow_add]
    exact Nat.mul_le_mul_right _ (by omega)

theorem roundMagnitude_mono (ordered : magnitude ≤ other) :
    roundMagnitude magnitude ≤ roundMagnitude other := by
  by_cases otherSmall : other ≤ 2 ^ 53
  · rwa [roundMagnitude, roundMagnitude, if_pos otherSmall, if_pos (by omega)]
  have otherLarge : 2 ^ 53 < other := Nat.lt_of_not_le otherSmall
  have above := (roundMagnitude_bounds otherLarge).1
  by_cases small : magnitude ≤ 2 ^ 53
  · have exponent : 53 ≤ other.log2 := (Nat.le_log2 (by omega)).mpr (Nat.le_of_lt otherLarge)
    rw [roundMagnitude, if_pos small]
    exact Nat.le_trans small (Nat.le_trans (Nat.pow_le_pow_right (by decide) exponent) above)
  have large : 2 ^ 53 < magnitude := Nat.lt_of_not_le small
  have exponents : magnitude.log2 ≤ other.log2 :=
    (Nat.le_log2 (by omega)).mpr (Nat.le_trans (Nat.log2_self_le (by omega)) ordered)
  rcases Nat.lt_or_eq_of_le exponents with smaller | same
  · -- A power of two lies between the two.
    calc roundMagnitude magnitude ≤ 2 ^ (magnitude.log2 + 1) := (roundMagnitude_bounds large).2
      _ ≤ 2 ^ other.log2 := Nat.pow_le_pow_right (by decide) smaller
      _ ≤ roundMagnitude other := above
  · rw [roundMagnitude, roundMagnitude, if_neg small, if_neg otherSmall, same]
    exact Nat.mul_le_mul_right _ (nearest_mono _ ordered)

theorem round_nonneg {value : Int} (nonnegative : 0 ≤ value) : 0 ≤ round value :=
  Int.mul_nonneg (Int.sign_nonneg_iff.mpr nonnegative) (Int.natCast_nonneg _)

/-- A number that comes out below 2^53 has lost nothing. -/
theorem round_eq_of_lt {value : Int} (small : (round value).natAbs < 2 ^ 53) :
    round value = value := by
  by_cases exact : value.natAbs ≤ 2 ^ 53
  · exact round_of_natAbs_le exact
  · have large : 2 ^ 53 < value.natAbs := Nat.lt_of_not_le exact
    have exponent : 53 ≤ value.natAbs.log2 :=
      (Nat.le_log2 (by omega)).mpr (Nat.le_of_lt large)
    have kept : (round value).natAbs = roundMagnitude value.natAbs := by
      rw [round, Int.natAbs_mul, Int.natAbs_sign_of_ne_zero (by omega), Nat.one_mul,
        Int.natAbs_natCast]
    have above : 2 ^ 53 ≤ roundMagnitude value.natAbs :=
      Nat.le_trans (Nat.pow_le_pow_right (by decide) exponent) (roundMagnitude_bounds large).1
    omega

theorem round_natCast (number : Nat) : round number = roundMagnitude number := by
  cases number with
  | zero => rfl
  | succ number => rw [round, Int.sign_eq_one_of_pos (by omega), Int.one_mul, Int.natAbs_natCast]

theorem round_neg (value : Int) : round (-value) = -round value := by
  rw [round, round, Int.sign_neg, Int.natAbs_neg, Int.neg_mul]

theorem round_mono {value greater : Int} (ordered : value ≤ greater) :
    round value ≤ round greater := by
  obtain ⟨number, rfl | rfl⟩ := Int.eq_nat_or_neg value
  · obtain ⟨bound, rfl⟩ := Int.eq_ofNat_of_zero_le (Int.le_trans (Int.natCast_nonneg _) ordered)
    have magnitudes := roundMagnitude_mono (Int.ofNat_le.mp ordered)
    rw [round_natCast, round_natCast]
    omega
  · obtain ⟨bound, rfl | rfl⟩ := Int.eq_nat_or_neg greater
    · rw [round_neg, round_natCast, round_natCast]
      omega
    · have magnitudes := roundMagnitude_mono (by omega : bound ≤ number)
      rw [round_neg, round_neg, round_natCast, round_natCast]
      omega

theorem add_comm (left right : Int) : add left right = add right left := by
  rw [add, add, Int.add_comm]

theorem add_mono {left right greaterLeft greaterRight : Int} (lefts : left ≤ greaterLeft)
    (rights : right ≤ greaterRight) : add left right ≤ add greaterLeft greaterRight :=
  round_mono (Int.add_le_add lefts rights)

/-- A number up to 2^53 that a sum reaches is reached by the rounded sum. -/
theorem le_add {value left right : Int} (nonnegative : 0 ≤ left + right) (small : value ≤ 2 ^ 53)
    (reached : value ≤ left + right) : value ≤ add left right := by
  by_cases negative : value < 0
  · exact Int.le_trans (Int.le_of_lt negative) (round_nonneg nonnegative)
  · calc value = round value := (round_of_natAbs_le (by omega)).symm
      _ ≤ add left right := round_mono reached

/-- The sum without any rounding. -/
@[simp] def exactSum : List Int → Int
  | [] => 0
  | number :: rest => number + exactSum rest

theorem exactSum_nonneg {sizes : List Int} (nonnegative : ∀ size ∈ sizes, 0 ≤ size) :
    0 ≤ exactSum sizes := by
  induction sizes with
  | nil => exact Int.le_refl 0
  | cons size rest ih =>
      obtain ⟨head, others⟩ := List.forall_mem_cons.mp nonnegative
      exact Int.add_nonneg head (ih others)

/-- A computed number in the place of an exact one: it is that number, unless both have come to
2^53. -/
def StandsFor (computed exact : Int) : Prop :=
  computed = exact ∨ 2 ^ 53 ≤ computed ∧ 2 ^ 53 ≤ exact

section StandsFor

variable {computed exact size total sum : Int} {sizes : List Int}

theorem standsFor_round (nonnegative : 0 ≤ exact) : StandsFor (round exact) exact := by
  by_cases small : exact ≤ 2 ^ 53
  · exact .inl (round_of_natAbs_le (by omega))
  · have limit : round (2 ^ 53) ≤ round exact := round_mono (by omega)
    rw [round_of_natAbs_le (by decide)] at limit
    exact .inr ⟨limit, by omega⟩

theorem StandsFor.add (stands : StandsFor computed exact) (positive : 0 ≤ exact)
    (nonnegative : 0 ≤ size) : StandsFor (Number.add computed size) (exact + size) := by
  rcases stands with rfl | ⟨large, exactLarge⟩
  · exact standsFor_round (Int.add_nonneg positive nonnegative)
  · exact .inr ⟨le_add (by omega) (Int.le_refl _) (by omega), by omega⟩

/-- However many sizes are added, what has been computed stands for what they come to. -/
theorem StandsFor.foldl_add (stands : StandsFor total sum) (positive : 0 ≤ sum)
    (nonnegative : ∀ size ∈ sizes, 0 ≤ size) :
    StandsFor (sizes.foldl Number.add total) (sum + exactSum sizes) := by
  induction sizes generalizing total sum with
  | nil => rwa [List.foldl_nil, exactSum, Int.add_zero]
  | cons size rest ih =>
      obtain ⟨head, others⟩ := List.forall_mem_cons.mp nonnegative
      rw [List.foldl_cons, exactSum, ← Int.add_assoc]
      exact ih (stands.add positive head) (Int.add_nonneg positive head) others

end StandsFor

theorem sub_mono {left right greaterLeft greaterRight : Int} (lefts : left ≤ greaterLeft)
    (rights : right ≤ greaterRight) : sub left greaterRight ≤ sub greaterLeft right :=
  round_mono (Int.sub_le_sub lefts rights)

end Carve.Number
