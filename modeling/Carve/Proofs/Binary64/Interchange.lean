import Carve.Proofs.Binary64.Exact
import Carve.Proofs.Binary64.Single

namespace Carve

structure BinaryFormat where
  exponentBits : Nat
  fractionBits : Nat

namespace BinaryFormat

/-- What a pattern stands for.  Zero has a sign as well. -/
inductive Datum where
  | finite (negative : Bool) (magnitude : ℚ)
  | infinite (negative : Bool)
  | nan
deriving DecidableEq

def single : BinaryFormat := ⟨8, 23⟩

def double : BinaryFormat := ⟨11, 52⟩

/-- What the exponent of a number between one and two is written as. -/
def bias (format : BinaryFormat) : Nat := 2 ^ (format.exponentBits - 1) - 1

/-- The fraction stands behind a leading one.  Under the least exponent it stands behind a zero, and
the exponent counts as one. -/
def magnitude (format : BinaryFormat) (exponent fraction : Nat) : ℚ :=
  if exponent = 0 then 2 ^ (1 - format.bias : Int) * (fraction / 2 ^ format.fractionBits)
  else 2 ^ (exponent - format.bias : Int) * (1 + fraction / 2 ^ format.fractionBits)

def datum (format : BinaryFormat) (pattern : Nat) : Datum :=
  let negative := pattern.testBit (format.exponentBits + format.fractionBits)
  let exponent := pattern / 2 ^ format.fractionBits % 2 ^ format.exponentBits
  let fraction := pattern % 2 ^ format.fractionBits
  if exponent = 2 ^ format.exponentBits - 1 then
    if fraction = 0 then .infinite negative else .nan
  else .finite negative (format.magnitude exponent fraction)

theorem single_datum (pattern : Nat) : single.datum pattern =
    if pattern / 2 ^ 23 % 2 ^ 8 = 255 then
      if pattern % 2 ^ 23 = 0 then .infinite (decide (pattern / 2 ^ 31 % 2 = 1)) else .nan
    else .finite (decide (pattern / 2 ^ 31 % 2 = 1))
      (single.magnitude (pattern / 2 ^ 23 % 2 ^ 8) (pattern % 2 ^ 23)) := by
  rw [← Nat.testBit_eq_decide_div_mod_eq]
  rfl

theorem double_datum (pattern : Nat) : double.datum pattern =
    if pattern / 2 ^ 52 % 2 ^ 11 = 2047 then
      if pattern % 2 ^ 52 = 0 then .infinite (decide (pattern / 2 ^ 63 % 2 = 1)) else .nan
    else .finite (decide (pattern / 2 ^ 63 % 2 = 1))
      (double.magnitude (pattern / 2 ^ 52 % 2 ^ 11) (pattern % 2 ^ 52)) := by
  rw [← Nat.testBit_eq_decide_div_mod_eq]
  rfl

/-- Without a point in it, the significand is a whole number. -/
theorem magnitude_eq (format : BinaryFormat) (exponent fraction : Nat) :
    format.magnitude exponent fraction =
      (if exponent = 0 then fraction else 2 ^ format.fractionBits + fraction : Nat) *
        2 ^ ((max exponent 1 : Nat) - format.bias - format.fractionBits : Int) := by
  rw [magnitude]
  generalize shifted : ((max exponent 1 : Nat) - format.bias - format.fractionBits : Int) = scale
  split
  · next least =>
      have place : (1 : Int) - format.bias = format.fractionBits + scale := by omega
      rw [place, ← Binary64.pow_mul_zpow]
      field_simp
  · next normal =>
      have place : (exponent : Int) - format.bias = format.fractionBits + scale := by omega
      rw [place, ← Binary64.pow_mul_zpow, Nat.cast_add, Nat.cast_pow, Nat.cast_ofNat]
      field_simp

end BinaryFormat

namespace Binary64

/-- What a number stands for. -/
def datum (number : Binary64) : BinaryFormat.Datum :=
  match number with
  | .finite negative _ _ => .finite negative number.magnitude
  | .infinite negative => .infinite negative
  | .nan => .nan

variable {negative : Bool} {exponent fraction significand pattern : Nat}

theorem datum_eq_nan {number : Binary64} : number.datum = .nan ↔ number = .nan := by
  cases number <;> simp [datum]

theorem double_magnitude (exponent fraction : Nat) :
    BinaryFormat.double.magnitude exponent fraction =
      significandOf exponent fraction * 2 ^ scaleOf exponent := by
  have bias : (BinaryFormat.double.bias : Int) = 1023 := rfl
  have scale : ((max exponent 1 : Nat) : Int) - 1023 - 52 = scaleOf exponent := by
    unfold scaleOf
    omega
  rw [BinaryFormat.magnitude_eq, bias, ← scale]
  rfl

/-- A pattern of 64 bits is read as the number that it stands for. -/
theorem datum_ofPattern (pattern : Nat) :
    (ofPattern pattern).datum = BinaryFormat.double.datum pattern := by
  have below : pattern / 2 ^ 52 % 2 ^ 11 < 2 ^ 11 := Nat.mod_lt _ (by decide)
  have fraction : (Fin.ofNat (2 ^ 52) pattern = 0) = (pattern % 2 ^ 52 = 0) :=
    propext (Fin.ext_iff)
  rw [BinaryFormat.double_datum]
  simp only [ofPattern, fraction]
  split
  · next finite =>
      rw [if_neg (Nat.ne_of_lt finite), double_magnitude]
      rfl
  · next special =>
      have greatest : pattern / 2 ^ 52 % 2 ^ 11 = 2047 := by omega
      rw [if_pos greatest]
      split <;> rfl

theorem datum_normal (bound : exponent < 2047) (normal : exponent ≠ 0)
    (lower : 2 ^ 52 ≤ significand) (upper : significand < 2 ^ 53) :
    datum (.finite negative (Fin.ofNat 2047 exponent) (Fin.ofNat (2 ^ 52) significand)) =
      .finite negative (significand * 2 ^ (exponent - 1075 : Int)) := by
  have inside : exponent % 2047 = exponent := Nat.mod_eq_of_lt bound
  have scale : scaleOf exponent = exponent - 1075 := by
    unfold scaleOf
    omega
  simp only [datum, magnitude, Fin.ofNat, inside, significandOf_mod normal lower upper, scale]

theorem scaled_shift (number count : Nat) (scale : Int) :
    ((number * 2 ^ count : Nat) : ℚ) * 2 ^ scale = number * 2 ^ (count + scale) := by
  rw [Nat.cast_mul, Nat.cast_pow, Nat.cast_ofNat, mul_assoc, pow_mul_zpow]

theorem single_magnitude (exponent fraction : Nat) :
    BinaryFormat.single.magnitude exponent fraction =
      (if exponent = 0 then fraction else 2 ^ 23 + fraction : Nat) *
        2 ^ ((max exponent 1 : Nat) - 150 : Int) := by
  have bias : (BinaryFormat.single.bias : Int) = 127 := rfl
  have scale : ((max exponent 1 : Nat) : Int) - 127 - 23 = (max exponent 1 : Nat) - 150 := by omega
  rw [BinaryFormat.magnitude_eq, bias, ← scale]
  rfl

/-- A fraction below the normal range stands for the same as the normal number it becomes. -/
theorem datum_subnormal (nonzero : fraction ≠ 0) (bound : fraction < 2 ^ 23) :
    datum (.finite negative (Fin.ofNat 2047 (fraction.log2 + 874))
      (Fin.ofNat (2 ^ 52) (fraction * 2 ^ (52 - fraction.log2)))) =
        .finite negative (BinaryFormat.single.magnitude 0 fraction) := by
  have lead : fraction.log2 < 23 := (Nat.log2_lt nonzero).mpr bound
  obtain ⟨lower, upper⟩ := normalized_bounds nonzero (by omega)
  have scale : ((52 - fraction.log2 : Nat) : Int) + ((fraction.log2 + 874 : Nat) - 1075) =
      -149 := by omega
  rw [datum_normal (by omega) (by omega) lower upper, scaled_shift, scale, single_magnitude]
  rfl

/-- A number in the normal range keeps its significand, and its exponent is counted from another
bias. -/
theorem datum_rebiased (normal : exponent ≠ 0) (bound : exponent < 255)
    (fractionBound : fraction < 2 ^ 23) :
    datum (.finite negative (Fin.ofNat 2047 (exponent + 896))
      (Fin.ofNat (2 ^ 52) (fraction * 2 ^ 29))) =
        .finite negative (BinaryFormat.single.magnitude exponent fraction) := by
  have scale : ((29 : Nat) : Int) + ((exponent + 896 : Nat) - 1075) =
      (max exponent 1 : Nat) - 150 := by omega
  rw [fraction_shifted, datum_normal (by omega) (by omega) (by omega) (by omega), scaled_shift,
    scale, single_magnitude, if_neg normal]

/-- A pattern of 32 bits is read as a number that stands for the same. -/
theorem datum_ofSinglePattern (pattern : Nat) :
    (ofSinglePattern pattern).datum = BinaryFormat.single.datum pattern := by
  have below : pattern % 2 ^ 23 < 2 ^ 23 := Nat.mod_lt _ (by decide)
  rw [BinaryFormat.single_datum]
  simp only [ofSinglePattern]
  split
  · split <;> rfl
  · next ordinary =>
      split
      · next least =>
          rw [least]
          split
          · next zero =>
              rw [zero]
              simp [datum, magnitude, significandOf, BinaryFormat.magnitude]
          · next nonzero => exact datum_subnormal nonzero below
      · next normal => exact datum_rebiased normal (by omega) below

end Binary64

end Carve
