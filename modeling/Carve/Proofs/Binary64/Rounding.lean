import Carve.Proofs.Binary64.Exact
import Carve.Proofs.Number
import Mathlib.Algebra.Group.Nat.Even
import Mathlib.Algebra.Order.Ring.Abs

/-!
Rounding to floating-point numbers.

A quotient becomes the number nearest to it, and of two that are as near the one with an even
significand (`Binary64.ofRatio_rounds`).  The argument is made on the multiples of one power of two:
the quotient has 53 bits in front of it, so that every number which is none of the multiples is too
small to be near.
-/

namespace Carve

/-- A point is nearer to an exact value than another, or it is as near and even. -/
def Nearer (exact point other : ℚ) (even : Prop) : Prop :=
  |exact - point| < |exact - other| ∨ |exact - point| = |exact - other| ∧ even

namespace Nearer

variable {exact point other border unit : ℚ} {even : Prop}

theorem scale (nearer : Nearer exact point other even) (positive : 0 < unit) :
    Nearer (exact * unit) (point * unit) (other * unit) even := by
  simp only [Nearer, ← sub_mul, abs_mul, abs_of_pos positive]
  rcases nearer with closer | ⟨same, isEven⟩
  · exact .inl (mul_lt_mul_of_pos_right closer positive)
  · exact .inr ⟨by rw [same], isEven⟩

theorem le (nearer : Nearer exact point other even) : |exact - point| ≤ |exact - other| := by
  rcases nearer with closer | ⟨same, _⟩
  · exact le_of_lt closer
  · exact le_of_eq same

/-- What lies behind a border is farther off than the border. -/
theorem behind (nearest : |exact - point| ≤ |exact - border|) (before : border ≤ exact)
    (beyond : other < border) : Nearer exact point other even := by
  refine .inl (lt_of_le_of_lt nearest ?_)
  rw [abs_of_nonneg (by linarith), abs_of_nonneg (by linarith)]
  linarith

/-- Zero is nearest to what is less than half of the other point. -/
theorem zero (nonnegative : 0 ≤ exact) (small : 2 * exact < other) :
    Nearer exact 0 other even := by
  refine .inl ?_
  rw [sub_zero, abs_of_nonneg nonnegative, abs_of_nonpos (by linarith)]
  linarith

end Nearer

namespace Number

variable {numerator denominator : Nat}

/-- Rounding to a whole number goes wrong by a half at most, and then the result is even. -/
theorem nearest_error (numerator : Nat) (positive : 0 < denominator) :
    |(numerator : ℚ) / denominator - nearest numerator denominator| < 1 / 2 ∨
      |(numerator : ℚ) / denominator - nearest numerator denominator| = 1 / 2 ∧
        Even (nearest numerator denominator) := by
  have positiveCast : (0 : ℚ) < denominator := by exact_mod_cast positive
  have parts : (denominator : ℚ) * (numerator / denominator : Nat) +
      (numerator % denominator : Nat) = numerator := by
    exact_mod_cast Nat.div_add_mod numerator denominator
  have below := Nat.mod_lt numerator positive
  have whole : (numerator : ℚ) / denominator =
      (numerator / denominator : Nat) + (numerator % denominator : Nat) / denominator := by
    rw [← parts]
    field_simp
  rw [whole, nearest]
  generalize numerator / denominator = quotient
  generalize numerator % denominator = rest at below ⊢
  have nonnegative : (0 : ℚ) ≤ rest / denominator := by positivity
  split
  · next less =>
      have half : (rest : ℚ) / denominator < 1 / 2 := by
        rw [div_lt_div_iff₀ positiveCast (by norm_num)]
        exact_mod_cast (by omega : rest * 2 < 1 * denominator)
      rw [add_sub_cancel_left, abs_of_nonneg nonnegative]
      exact .inl half
  · next more =>
      split
      · next tie =>
          have half : (rest : ℚ) / denominator = 1 / 2 := by
            rw [div_eq_div_iff positiveCast.ne' (by norm_num)]
            exact_mod_cast (by omega : rest * 2 = 1 * denominator)
          rw [half]
          refine .inr ⟨?_, Nat.even_iff.mpr (by omega)⟩
          rcases Nat.mod_two_eq_zero_or_one quotient with even | odd
          · rw [even]
            norm_num
          · rw [odd]
            push_cast
            norm_num
      · next other =>
          have half : 1 / 2 < (rest : ℚ) / denominator := by
            rw [div_lt_div_iff₀ (by norm_num) positiveCast]
            exact_mod_cast (by omega : 1 * denominator < rest * 2)
          have one : (rest : ℚ) / denominator < 1 := by
            rw [div_lt_one positiveCast]
            exact_mod_cast below
          refine .inl ?_
          push_cast
          rw [add_sub_add_left_eq_sub, abs_of_neg (by linarith)]
          linarith

/-- No whole number is nearer to a quotient than the one that it is rounded to. -/
theorem nearest_nearer (numerator : Nat) (positive : 0 < denominator) {other : Nat}
    (apart : other ≠ nearest numerator denominator) :
    Nearer (numerator / denominator) (nearest numerator denominator) other
      (Even (nearest numerator denominator)) := by
  have error := nearest_error numerator positive
  generalize nearest numerator denominator = point at apart error ⊢
  generalize (numerator : ℚ) / denominator = exact at error ⊢
  have step : (1 : ℚ) ≤ |(point : ℚ) - other| := by
    have whole : (1 : Int) ≤ |(point : Int) - other| := by
      have nonzero : (point : Int) - other ≠ 0 := by omega
      exact Int.one_le_abs nonzero
    exact_mod_cast whole
  have around := abs_sub_le (point : ℚ) exact other
  rw [abs_sub_comm (point : ℚ) exact] at around
  rcases error with small | ⟨half, even⟩
  · exact .inl (by linarith)
  · rcases lt_or_eq_of_le (by linarith : |exact - point| ≤ |exact - other|) with closer | same
    · exact .inl closer
    · exact .inr ⟨same, even⟩

end Number

namespace Binary64

/-- The significand, that of an infinite number being even. -/
def significand : Binary64 → Nat
  | .finite _ exponent fraction => significandOf exponent.val fraction.val
  | .infinite _ => 2 ^ 52
  | .nan => 0

def negative? : Binary64 → Option Bool
  | .finite negative _ _ | .infinite negative => some negative
  | .nan => none

/-- The number that an exact size with a sign is rounded to: every other one is farther off, or as
far, this one being even. -/
structure Rounds (negative : Bool) (exact : ℚ) (number : Binary64) : Prop where
  sign : number.negative? = some negative
  nearest (other : Binary64) (apart : other.magnitude ≠ number.magnitude) :
    Nearer exact number.magnitude other.magnitude (Even number.significand)

theorem significandOf_lt (exponent : Nat) {fraction : Nat} (bound : fraction < 2 ^ 52) :
    significandOf exponent fraction < 2 ^ 53 := by
  unfold significandOf
  split <;> omega

theorem zpow_le_zpow {scale greater : Int} (ordered : scale ≤ greater) :
    (2 : ℚ) ^ scale ≤ 2 ^ greater :=
  zpow_le_zpow_right₀ (by norm_num) ordered

theorem magnitude_scaled (number : Binary64) : ∃ (significand : Nat) (scale : Int),
    number.magnitude = significand * 2 ^ scale ∧ significand < 2 ^ 53 ∧ -1074 ≤ scale := by
  cases number with
  | finite negative exponent fraction =>
      refine ⟨_, _, rfl, significandOf_lt _ fraction.isLt, ?_⟩
      unfold scaleOf
      omega
  | infinite negative =>
      refine ⟨2 ^ 52, 972, ?_, by norm_num, by norm_num⟩
      rw [Nat.cast_pow, Nat.cast_ofNat, pow_mul_zpow]
      rfl
  | nan => exact ⟨0, 0, by simp [magnitude], by norm_num, by norm_num⟩

theorem magnitude_le (number : Binary64) : number.magnitude ≤ 2 ^ (1024 : Int) := by
  cases number with
  | infinite negative => exact le_refl _
  | nan => exact zpow_nonneg (by norm_num) _
  | finite negative exponent fraction =>
      have bound : scaleOf exponent.val ≤ 971 := by
        unfold scaleOf
        omega
      have significand : (significandOf exponent.val fraction.val : ℚ) ≤ 2 ^ 53 := by
        exact_mod_cast Nat.le_of_lt (significandOf_lt _ fraction.isLt)
      calc (significandOf exponent.val fraction.val : ℚ) * 2 ^ scaleOf exponent.val
          ≤ 2 ^ 53 * 2 ^ (971 : Int) :=
            mul_le_mul significand (zpow_le_zpow bound) (by positivity) (by positivity)
        _ = 2 ^ (1024 : Int) := pow_mul_zpow 53 971

theorem magnitude_least (number : Binary64) (nonzero : number.magnitude ≠ 0) :
    (2 : ℚ) ^ (-1074 : Int) ≤ number.magnitude := by
  obtain ⟨significand, scale, same, _, least⟩ := number.magnitude_scaled
  rw [same] at nonzero ⊢
  have positive : (1 : ℚ) ≤ significand := by
    have some : significand ≠ 0 := by
      rintro rfl
      exact nonzero (by simp)
    exact_mod_cast Nat.pos_of_ne_zero some
  calc (2 : ℚ) ^ (-1074 : Int) ≤ 2 ^ scale := zpow_le_zpow least
    _ ≤ significand * 2 ^ scale := le_mul_of_one_le_left (by positivity) positive

theorem infinite_rounds (negative : Bool) {exact : ℚ} (large : (2 : ℚ) ^ (1024 : Int) ≤ exact) :
    Rounds negative exact (.infinite negative) where
  sign := rfl
  nearest other apart := .behind (le_refl _) large (lt_of_le_of_ne other.magnitude_le apart)

theorem zero_rounds (negative : Bool) {exact : ℚ} (nonnegative : 0 ≤ exact)
    (small : 2 * exact < 2 ^ (-1074 : Int)) : Rounds negative exact (.finite negative 0 0) where
  sign := rfl
  nearest other apart := by
    have zero : magnitude (.finite negative 0 0) = 0 := by
      simp [magnitude, significandOf]
    rw [zero] at apart ⊢
    exact .zero nonnegative (lt_of_lt_of_le small (other.magnitude_least apart))

/-- An exact size that is that of a number is kept. -/
theorem Rounds.exact {negative : Bool} {number other : Binary64}
    (rounds : Rounds negative other.magnitude number) : number.magnitude = other.magnitude := by
  by_contra apart
  have near := (rounds.nearest other (Ne.symm apart)).le
  rw [sub_self, abs_zero] at near
  exact apart (sub_eq_zero.mp (abs_nonpos_iff.mp near)).symm

section Assemble

variable {negative : Bool} {significand : Nat} {scale : Int} {exact : ℚ}

theorem assemble_finite (exponent fraction : Nat) (bound : exponent < 2047)
    (fractionBound : fraction < 2 ^ 52)
    (fields : (scale + 1074).toNat * 2 ^ 52 + significand = exponent * 2 ^ 52 + fraction) :
    assemble negative significand scale =
      .finite negative ⟨exponent, bound⟩ ⟨fraction, fractionBound⟩ := by
  have below : exponent * 2 ^ 52 + fraction < 2047 * 2 ^ 52 := by omega
  rw [assemble, fields, if_pos below, ← ofPattern_pattern (.finite negative ⟨exponent, bound⟩ _),
    pattern, Nat.add_assoc]

theorem scaleOf_succ (shift : Nat) : scaleOf (shift + 1) = shift - 1074 := by
  unfold scaleOf
  omega

/-- A significand at a scale becomes a number of just that size, unless the fields overflow. -/
theorem assemble_exact (negative : Bool) (least : -1074 ≤ scale) (upper : significand ≤ 2 ^ 53)
    (normal : scale = -1074 ∨ 2 ^ 52 ≤ significand)
    (room : (scale + 1074).toNat * 2 ^ 52 + significand < 2047 * 2 ^ 52) :
    (assemble negative significand scale).negative? = some negative ∧
      (assemble negative significand scale).magnitude = significand * 2 ^ scale ∧
      (Even significand → Even (assemble negative significand scale).significand) := by
  obtain ⟨shift, rfl⟩ : ∃ shift : Nat, scale = shift - 1074 := ⟨(scale + 1074).toNat, by omega⟩
  have places : ((shift : Int) - 1074 + 1074).toNat = shift := by omega
  rw [places] at room
  rcases Nat.lt_or_ge significand (2 ^ 52) with small | large
  · -- Without its leading bit a significand stands at the least scale.
    have unshifted : shift = 0 := by omega
    subst unshifted
    rw [assemble_finite 0 significand (by norm_num) small (by rw [places])]
    exact ⟨rfl, rfl, id⟩
  rcases Nat.lt_or_eq_of_le upper with below | carried
  · rw [assemble_finite (shift + 1) (significand - 2 ^ 52) (by omega) (by omega)
      (by rw [places]; omega)]
    have kept : significandOf (shift + 1) (significand - 2 ^ 52) = significand := by
      rw [significandOf, if_neg (Nat.succ_ne_zero _)]
      omega
    refine ⟨rfl, ?_, fun even => ?_⟩
    · simp only [magnitude, kept, scaleOf_succ]
    · simpa only [Binary64.significand, kept] using even
  · subst carried
    rw [assemble_finite (shift + 2) 0 (by omega) (by norm_num) (by rw [places]; omega)]
    refine ⟨rfl, ?_, fun _ => ⟨2 ^ 51, rfl⟩⟩
    have twice : (2 : ℚ) ^ 52 * 2 ^ (((shift + 1 : Nat) : Int) - 1074) =
        2 ^ 53 * 2 ^ ((shift : Int) - 1074) := by
      rw [pow_mul_zpow, pow_mul_zpow]
      congr 1
      omega
    simp only [magnitude, scaleOf_succ, significandOf]
    exact_mod_cast twice

theorem assemble_infinite (negative : Bool) (least : -1074 ≤ scale) (upper : significand ≤ 2 ^ 53)
    (normal : scale = -1074 ∨ 2 ^ 52 ≤ significand)
    (full : 2047 * 2 ^ 52 ≤ (scale + 1074).toNat * 2 ^ 52 + significand) :
    assemble negative significand scale = .infinite negative ∧
      (2 : ℚ) ^ (1024 : Int) ≤ significand * 2 ^ scale := by
  refine ⟨by rw [assemble, if_neg (Nat.not_lt.mpr full)], ?_⟩
  have reached (count : Nat) (least : Int) (significant : 2 ^ count ≤ significand)
      (scaled : least ≤ scale) (whole : count + least = 1024) :
      (2 : ℚ) ^ (1024 : Int) ≤ significand * 2 ^ scale := by
    rw [← whole, ← pow_mul_zpow]
    refine mul_le_mul ?_ (zpow_le_zpow scaled) (by positivity) (by positivity)
    exact_mod_cast significant
  rcases lt_or_ge scale 972 with smaller | larger
  · exact reached 53 971 (by omega) (by omega) rfl
  · exact reached 52 972 (by omega) larger rfl

/-- Of the multiples of a power of two the nearest is nearest among all numbers, if 53 bits of the
exact size are in front of it. -/
theorem nearest_of_multiples
    (normal : scale = -1074 ∨ (2 : ℚ) ^ 52 * 2 ^ scale ≤ exact)
    (closest : ∀ other : Nat, other ≠ significand →
      Nearer exact (significand * 2 ^ scale) (other * 2 ^ scale) (Even significand))
    (other : Binary64) (apart : other.magnitude ≠ significand * 2 ^ scale) :
    Nearer exact (significand * 2 ^ scale) other.magnitude (Even significand) := by
  obtain ⟨point, unit, same, bound, least⟩ := other.magnitude_scaled
  rw [same] at apart ⊢
  rcases le_or_gt scale unit with coarser | finer
  · -- The other number is a multiple too.
    obtain ⟨shift, rfl⟩ : ∃ shift : Nat, unit = shift + scale := ⟨(unit - scale).toNat, by omega⟩
    have multiple : (point : ℚ) * 2 ^ ((shift : Int) + scale) =
        ((point * 2 ^ shift : Nat) : ℚ) * 2 ^ scale := by
      rw [← pow_mul_zpow, ← mul_assoc]
      push_cast
      rfl
    rw [multiple] at apart ⊢
    refine closest _ ?_
    rintro rfl
    exact apart rfl
  · have before : (2 : ℚ) ^ 52 * 2 ^ scale ≤ exact := normal.resolve_left (by omega)
    have small : (point : ℚ) * 2 ^ unit < 2 ^ 52 * 2 ^ scale := by
      calc (point : ℚ) * 2 ^ unit < 2 ^ 53 * 2 ^ unit :=
            mul_lt_mul_of_pos_right (by exact_mod_cast bound) (by positivity)
        _ = 2 ^ (53 + unit) := pow_mul_zpow 53 unit
        _ ≤ 2 ^ (52 + scale) := zpow_le_zpow (by omega)
        _ = 2 ^ 52 * 2 ^ scale := (pow_mul_zpow 52 scale).symm
    refine Nearer.behind ?_ before small
    by_cases first : 2 ^ 52 = significand
    · subst first
      push_cast
      exact le_refl _
    · exact_mod_cast (closest _ first).le

theorem assemble_rounds (least : -1074 ≤ scale) (upper : significand ≤ 2 ^ 53)
    (normal : scale = -1074 ∨ 2 ^ 52 ≤ significand ∧ (2 : ℚ) ^ 52 * 2 ^ scale ≤ exact)
    (closest : ∀ other : Nat, other ≠ significand →
      Nearer exact (significand * 2 ^ scale) (other * 2 ^ scale) (Even significand)) :
    Rounds negative exact (assemble negative significand scale) := by
  have nearest := nearest_of_multiples (normal.imp_right And.right) closest
  rcases Nat.lt_or_ge ((scale + 1074).toNat * 2 ^ 52 + significand) (2047 * 2 ^ 52) with
    room | full
  · obtain ⟨sign, size, even⟩ :=
      assemble_exact negative least upper (normal.imp_right And.left) room
    refine ⟨sign, fun other apart => ?_⟩
    rw [size] at apart ⊢
    exact (nearest other apart).imp_right (And.imp_right even)
  · obtain ⟨same, beyond⟩ :=
      assemble_infinite negative least upper (normal.imp_right And.left) full
    rw [same]
    rcases le_or_gt ((2 : ℚ) ^ (1024 : Int)) exact with large | small
    · exact infinite_rounds negative large
    · refine ⟨rfl, fun other apart => ?_⟩
      have size : (2 : ℚ) ^ (1024 : Int) = significand * 2 ^ scale := by
        by_contra different
        have farther := (nearest (.infinite negative) different).le
        rw [magnitude, abs_of_neg (by linarith), abs_of_neg (by linarith)] at farther
        exact different (by linarith)
      rw [magnitude, size] at apart ⊢
      exact (nearest other apart).imp_right (And.imp_right fun _ => ⟨2 ^ 51, rfl⟩)

end Assemble

section Ratio

variable {numerator denominator : Nat}

/-- A quotient of a multiple of a scale, without fractions. -/
theorem scaled_ratio (scale : Int) (positive : 0 < denominator) :
    (numerator : ℚ) / denominator =
      ((numerator * 2 ^ (-scale).toNat : Nat) : ℚ) / ((denominator * 2 ^ scale.toNat : Nat) : ℚ) *
        2 ^ scale := by
  have nonzero : (denominator : ℚ) ≠ 0 := by exact_mod_cast positive.ne'
  rw [zpow_split]
  push_cast
  field_simp

theorem ratio_lt_iff (numerator : Nat) (scale : Int) (count : Nat) (positive : 0 < denominator) :
    (numerator : ℚ) / denominator < 2 ^ count * 2 ^ scale ↔
      numerator * 2 ^ (-scale).toNat < 2 ^ count * (denominator * 2 ^ scale.toNat) := by
  have room : (0 : ℚ) < ((denominator * 2 ^ scale.toNat : Nat) : ℚ) := by
    exact_mod_cast Nat.mul_pos positive (Nat.two_pow_pos _)
  rw [scaled_ratio scale positive, mul_lt_mul_iff_left₀ (by positivity), div_lt_iff₀ room]
  exact_mod_cast Iff.rfl

theorem ratio_bounds (nonzero : numerator ≠ 0) (positive : denominator ≠ 0) :
    (2 : ℚ) ^ ((numerator.log2 : Int) - denominator.log2 - 1) < numerator / denominator ∧
      (numerator : ℚ) / denominator < 2 ^ ((numerator.log2 : Int) - denominator.log2 + 1) := by
  have room : (0 : ℚ) < denominator := by exact_mod_cast Nat.pos_of_ne_zero positive
  have lower : (2 : ℚ) ^ (numerator.log2 : Int) ≤ numerator := by
    exact_mod_cast Nat.log2_self_le nonzero
  have upper : (numerator : ℚ) < 2 ^ ((numerator.log2 : Int) + 1) := by
    exact_mod_cast Nat.lt_log2_self
  have lowerBelow : (2 : ℚ) ^ (denominator.log2 : Int) ≤ denominator := by
    exact_mod_cast Nat.log2_self_le positive
  have upperBelow : (denominator : ℚ) < 2 ^ ((denominator.log2 : Int) + 1) := by
    exact_mod_cast Nat.lt_log2_self
  constructor
  · rw [lt_div_iff₀ room]
    calc (2 : ℚ) ^ ((numerator.log2 : Int) - denominator.log2 - 1) * denominator
        < 2 ^ ((numerator.log2 : Int) - denominator.log2 - 1) *
            2 ^ ((denominator.log2 : Int) + 1) :=
          mul_lt_mul_of_pos_left upperBelow (by positivity)
      _ = 2 ^ (numerator.log2 : Int) := by
          rw [← zpow_add₀ (by norm_num)]
          congr 1
          omega
      _ ≤ numerator := lower
  · rw [div_lt_iff₀ room]
    calc (numerator : ℚ) < 2 ^ ((numerator.log2 : Int) + 1) := upper
      _ = 2 ^ ((numerator.log2 : Int) - denominator.log2 + 1) * 2 ^ (denominator.log2 : Int) := by
          rw [← zpow_add₀ (by norm_num)]
          congr 1
          omega
      _ ≤ 2 ^ ((numerator.log2 : Int) - denominator.log2 + 1) * denominator :=
          mul_le_mul_of_nonneg_left lowerBelow (by positivity)

/-- At its scale a quotient has 53 bits in front of the point, or fewer at the least scale. -/
theorem scaleFor_spec (nonzero : numerator ≠ 0) (positive : denominator ≠ 0) :
    -1074 ≤ scaleFor numerator denominator ∧
      (numerator : ℚ) / denominator < 2 ^ 53 * 2 ^ scaleFor numerator denominator ∧
      (scaleFor numerator denominator = -1074 ∨
        (2 : ℚ) ^ 52 * 2 ^ scaleFor numerator denominator ≤ numerator / denominator) := by
  obtain ⟨lower, upper⟩ := ratio_bounds nonzero positive
  have decided := ratio_lt_iff numerator ((numerator.log2 : Int) - denominator.log2 - 52) 52
    (Nat.pos_of_ne_zero positive)
  rw [← Nat.mul_assoc] at decided
  suffices free : ∃ scale : Int, scaleFor numerator denominator = max scale (-1074) ∧
      (numerator : ℚ) / denominator < 2 ^ (53 + scale) ∧
      (2 : ℚ) ^ (52 + scale) ≤ numerator / denominator by
    obtain ⟨scale, same, below, above⟩ := free
    rw [same, pow_mul_zpow, pow_mul_zpow]
    refine ⟨le_max_right _ _, lt_of_lt_of_le below (zpow_le_zpow ?_), ?_⟩
    · push_cast
      omega
    · rcases le_or_gt (-1074) scale with room | least
      · rw [max_eq_left room]
        exact .inr above
      · exact .inl (max_eq_right (le_of_lt least))
  refine ⟨_, rfl, ?_, ?_⟩
  · split
    · next fits =>
        have fewer := decided.mpr fits
        rw [pow_mul_zpow] at fewer
        apply lt_of_lt_of_eq fewer
        congr 1
        push_cast
        omega
    · apply lt_of_lt_of_eq upper
      congr 1
      omega
  · split
    · refine le_of_eq_of_le ?_ (le_of_lt lower)
      congr 1
      omega
    · next many =>
        have more := le_of_not_gt (mt decided.mp many)
        rw [pow_mul_zpow] at more
        exact_mod_cast more

theorem ofRatio_rounds (negative : Bool) (numerator : Nat) (positive : 0 < denominator) :
    Rounds negative (numerator / denominator) (ofRatio negative numerator denominator) := by
  unfold ofRatio
  split
  · next zero =>
      rw [zero, Nat.cast_zero, zero_div]
      exact zero_rounds negative (le_refl _) (by rw [mul_zero]; positivity)
  · next nonzero =>
      obtain ⟨least, upper, normal⟩ := scaleFor_spec nonzero positive.ne'
      generalize scaleFor numerator denominator = scale at least upper normal ⊢
      have room : 0 < denominator * 2 ^ scale.toNat := Nat.mul_pos positive (Nat.two_pow_pos _)
      have unit : (0 : ℚ) < 2 ^ scale := by positivity
      obtain ⟨down, up⟩ := Number.nearest_bounds (numerator * 2 ^ (-scale).toNat)
        (denominator * 2 ^ scale.toNat)
      refine assemble_rounds least ?_ ?_ ?_
      · have quotient := (Nat.div_lt_iff_lt_mul room).mpr ((ratio_lt_iff _ _ _ positive).mp upper)
        omega
      · refine normal.imp_right fun before => ⟨?_, before⟩
        have quotient := Nat.not_lt.mp (mt (ratio_lt_iff _ _ _ positive).mpr (not_lt_of_ge before))
        have many := (Nat.le_div_iff_mul_le room).mpr quotient
        omega
      · intro other apart
        rw [scaled_ratio scale positive]
        exact (Number.nearest_nearer _ room apart).scale unit

end Ratio

section Decimal

variable {digits : Nat}

theorem digits_bounds (nonzero : digits ≠ 0) :
    10 ^ ((Nat.toDigits 10 digits).length - 1) ≤ digits ∧
      digits < 10 ^ (Nat.toDigits 10 digits).length := by
  have positive : 0 < (Nat.toDigits 10 digits).length := Nat.length_toDigits_pos
  refine ⟨?_, (Nat.length_toDigits_le_iff (by decide) positive).mp (Nat.le_refl _)⟩
  rcases Nat.eq_zero_or_pos ((Nat.toDigits 10 digits).length - 1) with one | more
  · rw [one, Nat.pow_zero]
    exact Nat.pos_of_ne_zero nonzero
  · have longer := mt (Nat.length_toDigits_le_iff (b := 10) (n := digits) (by decide) more).mpr
    exact Nat.not_lt.mp (longer (by omega))

/-- The place of the first digit bounds a decimal. -/
theorem decimal_bounds (exponent : Int) (nonzero : digits ≠ 0) :
    (10 : ℚ) ^ ((Nat.toDigits 10 digits).length + exponent - 1) ≤ digits * 10 ^ exponent ∧
      (digits : ℚ) * 10 ^ exponent < 10 ^ ((Nat.toDigits 10 digits).length + exponent) := by
  obtain ⟨lower, upper⟩ := digits_bounds nonzero
  have positive : 0 < (Nat.toDigits 10 digits).length := Nat.length_toDigits_pos
  have unit : (0 : ℚ) < 10 ^ exponent := by positivity
  constructor
  · have first : ((Nat.toDigits 10 digits).length : Int) + exponent - 1 =
        ((Nat.toDigits 10 digits).length - 1 : Nat) + exponent := by
      omega
    rw [first, zpow_add₀ (by norm_num), zpow_natCast]
    exact mul_le_mul_of_nonneg_right (by exact_mod_cast lower) unit.le
  · rw [zpow_add₀ (by norm_num), zpow_natCast]
    exact mul_lt_mul_of_pos_right (by exact_mod_cast upper) unit

theorem pow_lt_pow_of_nat {twos tens : Nat} (less : 2 ^ twos < 10 ^ tens) :
    (2 : ℚ) ^ twos < 10 ^ tens := by
  have cast : ((2 ^ twos : Nat) : ℚ) < ((10 ^ tens : Nat) : ℚ) := Nat.cast_lt.mpr less
  rwa [Nat.cast_pow, Nat.cast_pow, Nat.cast_ofNat, Nat.cast_ofNat] at cast

theorem ofDecimal_rounds (negative : Bool) (digits : Nat) (exponent : Int) :
    Rounds negative (digits * 10 ^ exponent) (ofDecimal negative digits exponent) := by
  rcases eq_or_ne digits 0 with rfl | nonzero
  · rw [ofDecimal, if_pos (.inl rfl), Nat.cast_zero, zero_mul]
    exact zero_rounds negative (le_refl _) (by rw [mul_zero]; positivity)
  obtain ⟨lower, upper⟩ := decimal_bounds exponent nonzero
  unfold ofDecimal
  dsimp only
  split
  · next tiny =>
      have place := tiny.resolve_left nonzero
      apply zero_rounds negative (by positivity)
      have power : (10 : ℚ) ^ (-331 : Int) < 2 ^ (-1075 : Int) := by
        rw [zpow_neg, zpow_neg, zpow_ofNat, zpow_ofNat]
        exact inv_strictAnti₀ (by positivity) (pow_lt_pow_of_nat (by decide +kernel))
      calc 2 * ((digits : ℚ) * 10 ^ exponent)
          < 2 * 10 ^ ((Nat.toDigits 10 digits).length + exponent) :=
            mul_lt_mul_of_pos_left upper (by norm_num)
        _ ≤ 2 * 10 ^ (-331 : Int) :=
            mul_le_mul_of_nonneg_left (zpow_le_zpow_right₀ (by norm_num) (by omega)) (by norm_num)
        _ < 2 * 2 ^ (-1075 : Int) := mul_lt_mul_of_pos_left power (by norm_num)
        _ = 2 ^ (-1074 : Int) := pow_mul_zpow 1 (-1075)
  · split
    · next huge =>
        apply infinite_rounds negative
        have power : (2 : ℚ) ^ (1024 : Int) < 10 ^ (310 : Int) := by
          rw [zpow_ofNat, zpow_ofNat]
          exact pow_lt_pow_of_nat (by decide +kernel)
        calc (2 : ℚ) ^ (1024 : Int) ≤ 10 ^ (310 : Int) := le_of_lt power
          _ ≤ 10 ^ ((Nat.toDigits 10 digits).length + exponent - 1) :=
              zpow_le_zpow_right₀ (by norm_num) (by omega)
          _ ≤ digits * 10 ^ exponent := lower
    · have ratio : (digits : ℚ) * 10 ^ exponent =
          ((digits * 10 ^ exponent.toNat : Nat) : ℚ) / ((10 ^ (-exponent).toNat : Nat) : ℚ) := by
        rw [zpow_split]
        push_cast
        rw [mul_div_assoc]
      rw [ratio]
      exact ofRatio_rounds negative _ (Nat.pow_pos (by decide))

end Decimal

section Whole

theorem exists_magnitude {whole : Nat} (small : whole ≤ 2 ^ 53) :
    ∃ number : Binary64, number.magnitude = whole := by
  rcases Nat.lt_or_eq_of_le small with below | rfl
  · rcases eq_or_ne whole 0 with rfl | nonzero
    · exact ⟨.nan, by simp [magnitude]⟩
    · have bits : whole.log2 < 53 := (Nat.log2_lt nonzero).mpr below
      have lower := Nat.mul_le_mul_right (2 ^ (52 - whole.log2)) (Nat.log2_self_le nonzero)
      have upper :=
        Nat.mul_le_mul_right (2 ^ (52 - whole.log2)) (Nat.le_of_lt (@Nat.lt_log2_self whole))
      rw [← Nat.pow_add] at lower upper
      have first : whole.log2 + (52 - whole.log2) = 52 := by omega
      have last : whole.log2 + 1 + (52 - whole.log2) = 53 := by omega
      rw [first] at lower
      rw [last] at upper
      obtain ⟨number, size⟩ : ∃ number : Binary64, number.magnitude =
          ((whole * 2 ^ (52 - whole.log2) : Nat) : ℚ) * 2 ^ ((whole.log2 : Int) - 52) :=
        ⟨_, (assemble_exact false (by omega) upper (.inr lower) (by omega)).2.1⟩
      refine ⟨number, size.trans ?_⟩
      push_cast
      rw [mul_assoc, pow_mul_zpow]
      have none : ((52 - whole.log2 : Nat) : Int) + ((whole.log2 : Int) - 52) = 0 := by omega
      rw [none, zpow_zero, mul_one]
  · obtain ⟨number, size⟩ : ∃ number : Binary64, number.magnitude =
        ((2 ^ 53 : Nat) : ℚ) * 2 ^ (0 : Int) :=
      ⟨_, (assemble_exact false (by decide) (le_refl _) (.inr (by decide)) (by decide)).2.1⟩
    exact ⟨number, by rw [size, zpow_zero, mul_one]⟩

theorem ofInt_rounds (value : Int) :
    (ofInt value).Rounds (decide (value < 0)) (value.natAbs : ℚ) := by
  have rounds := ofRatio_rounds (decide (value < 0)) value.natAbs Nat.one_pos
  rwa [Nat.cast_one, div_one] at rounds

/-- Whole numbers up to 2^53 are kept. -/
theorem ofInt_exact {value : Int} (small : value.natAbs ≤ 2 ^ 53) :
    (ofInt value).value? = some (value : ℚ) := by
  obtain ⟨other, size⟩ := exists_magnitude small
  have rounds := ofInt_rounds value
  rw [← size] at rounds
  have kept := rounds.exact.trans size
  have sign := rounds.sign
  generalize ofInt value = number at kept sign ⊢
  cases number with
  | nan => contradiction
  | infinite negative =>
      have large : (2 : ℚ) ^ (53 : Int) < 2 ^ (1024 : Int) :=
        zpow_lt_zpow_right₀ (by norm_num) (by norm_num)
      have bound : (value.natAbs : ℚ) ≤ 2 ^ (53 : Int) := by exact_mod_cast small
      exact absurd (kept ▸ large) (not_lt_of_ge bound)
  | finite negative exponent fraction =>
      cases sign
      rw [value?, kept, Nat.cast_natAbs, Int.cast_abs]
      by_cases below : value < 0
      · have belowCast : (value : ℚ) < 0 := by exact_mod_cast below
        simp [below, abs_of_neg belowCast]
      · have aboveCast : (0 : ℚ) ≤ value := by exact_mod_cast Int.not_lt.mp below
        simp [below, abs_of_nonneg aboveCast]

end Whole

end Binary64

end Carve
