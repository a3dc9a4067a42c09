import Carve.Binary64

namespace Carve

theorem Number.nearest_mul (number : Nat) {unit : Nat} (positive : 0 < unit) :
    nearest (number * unit) unit = number := by
  have quotient : number * unit / unit = number := Nat.mul_div_cancel number positive
  have remainder : number * unit % unit = 0 := Nat.mul_mod_left number unit
  simp only [nearest, quotient, remainder]
  rw [if_pos (by omega)]

namespace Binary64

def singleSignBit (negative : Bool) : Nat := if negative then 2 ^ 31 else 0

/-- The 32-bit pattern of the nearest number; of two the one with an even significand.  The least
exponent of a normal number is 897 here.  Below it the unit stays that of the subnormal numbers, and
a significand that is rounded up carries into the exponent. -/
def singlePattern : Binary64 → Nat
  | .finite negative exponent fraction =>
      let unit := 2 ^ (29 + (897 - max exponent.val 1))
      let significand := Number.nearest (significandOf exponent.val fraction.val) unit
      singleSignBit negative + min ((exponent.val - 897) * 2 ^ 23 + significand) (255 * 2 ^ 23)
  | .infinite negative => singleSignBit negative + 255 * 2 ^ 23
  | .nan => 255 * 2 ^ 23 + 2 ^ 22

/-- What a number is after it has been stored in four bytes. -/
def toSingle (number : Binary64) : Binary64 := ofSinglePattern number.singlePattern

theorem singlePattern_lt (number : Binary64) : number.singlePattern < 2 ^ 32 := by
  cases number with
  | finite negative exponent fraction =>
      cases negative <;> simp only [singlePattern, singleSignBit, Bool.false_eq_true, if_true,
        if_false] <;> omega
  | infinite negative => cases negative <;> decide
  | nan => decide

variable {negative : Bool} {exponent fraction significand pattern : Nat}

theorem significandOf_mod (normal : exponent ≠ 0) (lower : 2 ^ 52 ≤ significand)
    (upper : significand < 2 ^ 53) :
    significandOf exponent (significand % 2 ^ 52) = significand := by
  rw [significandOf, if_neg normal]
  omega

theorem singlePattern_finite (bound : exponent < 2047) (normal : exponent ≠ 0)
    (lower : 2 ^ 52 ≤ significand) (upper : significand < 2 ^ 53) :
    singlePattern (.finite negative (Fin.ofNat 2047 exponent) (Fin.ofNat (2 ^ 52) significand)) =
      singleSignBit negative + min ((exponent - 897) * 2 ^ 23 +
        Number.nearest significand (2 ^ (29 + (897 - exponent)))) (255 * 2 ^ 23) := by
  have inside : exponent % 2047 = exponent := Nat.mod_eq_of_lt bound
  have least : max exponent 1 = exponent := by omega
  simp only [singlePattern, Fin.ofNat, inside, least, significandOf_mod normal lower upper]

theorem singlePattern_zero : singlePattern (.finite negative 0 0) = singleSignBit negative := by
  have whole : significandOf (0 : Fin 2047).val (0 : Fin (2 ^ 52)).val = 0 := rfl
  have nothing {unit : Nat} (positive : 0 < unit) : Number.nearest 0 unit = 0 := by
    simpa using Number.nearest_mul 0 positive
  simp only [singlePattern, whole, nothing (Nat.two_pow_pos _)]
  rfl

/-- A number is shifted up until its leading bit stands at the place 52. -/
theorem normalized_bounds (nonzero : fraction ≠ 0) (lead : fraction.log2 ≤ 52) :
    2 ^ 52 ≤ fraction * 2 ^ (52 - fraction.log2) ∧
      fraction * 2 ^ (52 - fraction.log2) < 2 ^ 53 := by
  have unit : 2 ^ fraction.log2 * 2 ^ (52 - fraction.log2) = 2 ^ 52 := by
    rw [← Nat.pow_add]
    congr 1
    omega
  have twice : 2 ^ (fraction.log2 + 1) * 2 ^ (52 - fraction.log2) = 2 ^ 53 := by
    rw [← Nat.pow_add]
    congr 1
    omega
  constructor
  · rw [← unit]
    exact Nat.mul_le_mul_right _ (Nat.log2_self_le nonzero)
  · rw [← twice]
    exact Nat.mul_lt_mul_of_pos_right Nat.lt_log2_self (Nat.two_pow_pos _)

theorem singlePattern_subnormal (nonzero : fraction ≠ 0) (bound : fraction < 2 ^ 23) :
    singlePattern (.finite negative (Fin.ofNat 2047 (fraction.log2 + 874))
      (Fin.ofNat (2 ^ 52) (fraction * 2 ^ (52 - fraction.log2)))) =
        singleSignBit negative + fraction := by
  have lead : fraction.log2 < 23 := (Nat.log2_lt nonzero).mpr bound
  obtain ⟨lower, upper⟩ := normalized_bounds nonzero (by omega)
  have shift : 29 + (897 - (fraction.log2 + 874)) = 52 - fraction.log2 := by omega
  have least : fraction.log2 + 874 - 897 = 0 := by omega
  rw [singlePattern_finite (by omega) (by omega) lower upper, shift,
    Number.nearest_mul _ (Nat.two_pow_pos _), least]
  omega

/-- The leading one of a normal number is no part of its fraction. -/
theorem fraction_shifted (fraction : Nat) : Fin.ofNat (2 ^ 52) (fraction * 2 ^ 29) =
    Fin.ofNat (2 ^ 52) ((2 ^ 23 + fraction) * 2 ^ 29) := by
  apply Fin.ext
  simp only [Fin.ofNat]
  omega

theorem singlePattern_normal (positive : exponent ≠ 0) (bound : exponent < 255)
    (fractionBound : fraction < 2 ^ 23) :
    singlePattern (.finite negative (Fin.ofNat 2047 (exponent + 896))
      (Fin.ofNat (2 ^ 52) (fraction * 2 ^ 29))) =
        singleSignBit negative + (exponent * 2 ^ 23 + fraction) := by
  have shift : 29 + (897 - (exponent + 896)) = 29 := by omega
  rw [fraction_shifted, singlePattern_finite (by omega) (by omega) (by omega) (by omega), shift,
    Number.nearest_mul _ (Nat.two_pow_pos _)]
  omega

theorem singlePattern_ofSinglePattern (number : ofSinglePattern pattern ≠ .nan) :
    (ofSinglePattern pattern).singlePattern = pattern % 2 ^ 32 := by
  have sign : singleSignBit (decide (pattern / 2 ^ 31 % 2 = 1)) =
      pattern / 2 ^ 31 % 2 * 2 ^ 31 := by
    rcases Nat.mod_two_eq_zero_or_one (pattern / 2 ^ 31) with even | odd
    · rw [even]
      rfl
    · rw [odd]
      rfl
  have parts : pattern % 2 ^ 32 = pattern / 2 ^ 31 % 2 * 2 ^ 31 +
      (pattern / 2 ^ 23 % 2 ^ 8 * 2 ^ 23 + pattern % 2 ^ 23) := by
    omega
  have fractionBound : pattern % 2 ^ 23 < 2 ^ 23 := Nat.mod_lt _ (by decide)
  simp only [ofSinglePattern] at number ⊢
  rw [parts, ← sign]
  split
  · next special =>
      rw [if_pos special] at number
      split at number
      · next zero =>
          rw [if_pos zero, special, zero]
          rfl
      · contradiction
  · next ordinary =>
      split
      · next least =>
          rw [least]
          split
          · next zero =>
              rw [singlePattern_zero]
              omega
          · next nonzero =>
              rw [singlePattern_subnormal nonzero fractionBound]
              omega
      · next normal => exact singlePattern_normal normal (by omega) fractionBound

theorem ofSinglePattern_mod (pattern : Nat) :
    ofSinglePattern (pattern % 2 ^ 32) = ofSinglePattern pattern := by
  have sign : pattern % 2 ^ 32 / 2 ^ 31 % 2 = pattern / 2 ^ 31 % 2 := by omega
  have exponent : pattern % 2 ^ 32 / 2 ^ 23 % 2 ^ 8 = pattern / 2 ^ 23 % 2 ^ 8 := by omega
  have fraction : pattern % 2 ^ 32 % 2 ^ 23 = pattern % 2 ^ 23 := by omega
  simp only [ofSinglePattern, sign, exponent, fraction]

/-- A number that fits in four bytes is stored as it is. -/
theorem toSingle_ofSinglePattern (pattern : Nat) :
    (ofSinglePattern pattern).toSingle = ofSinglePattern pattern := by
  by_cases number : ofSinglePattern pattern = .nan
  · rw [number]
    decide
  · rw [toSingle, singlePattern_ofSinglePattern number, ofSinglePattern_mod]

end Binary64

end Carve
