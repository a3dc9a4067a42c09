import Carve.Number

/-!
Binary floating-point numbers of 64 bits.

A number is held by its fields, so that two numbers are equal exactly when they print the same bits;
every pattern that is no number is the one `nan`.  A finite number stands for
`±significand * 2 ^ scale` (`Binary64.significand`, `Binary64.scale`).
-/

namespace Carve

inductive Binary64 where
  | finite (negative : Bool) (exponent : Fin 2047) (fraction : Fin (2 ^ 52))
  | infinite (negative : Bool)
  | nan
deriving Repr, DecidableEq

namespace Binary64

def zero : Binary64 := .finite false 0 0

instance : Inhabited Binary64 := ⟨zero⟩

/-- The sign, eleven bits of exponent and 52 of fraction, from the highest down. -/
def ofPattern (pattern : Nat) : Binary64 :=
  let negative := decide (pattern / 2 ^ 63 % 2 = 1)
  let exponent := pattern / 2 ^ 52 % 2 ^ 11
  let fraction := Fin.ofNat (2 ^ 52) pattern
  if finite : exponent < 2047 then .finite negative ⟨exponent, finite⟩ fraction
  else if fraction = 0 then .infinite negative
  else .nan

def signBit (negative : Bool) : Nat := if negative then 2 ^ 63 else 0

/-- The pattern of a number; of all patterns that are none, the quiet one without a sign. -/
def pattern : Binary64 → Nat
  | .finite negative exponent fraction => signBit negative + exponent.val * 2 ^ 52 + fraction.val
  | .infinite negative => signBit negative + 2047 * 2 ^ 52
  | .nan => 2047 * 2 ^ 52 + 2 ^ 51

theorem ofPattern_pattern (number : Binary64) : ofPattern number.pattern = number := by
  cases number with
  | finite negative exponent fraction =>
      obtain ⟨exponent, exponentBound⟩ := exponent
      obtain ⟨fraction, fractionBound⟩ := fraction
      have field :
          (signBit negative + exponent * 2 ^ 52 + fraction) / 2 ^ 52 % 2 ^ 11 = exponent := by
        cases negative <;> simp only [signBit, Bool.false_eq_true, if_true, if_false] <;> omega
      have sign :
          decide ((signBit negative + exponent * 2 ^ 52 + fraction) / 2 ^ 63 % 2 = 1) =
            negative := by
        cases negative <;>
          simp only [signBit, Bool.false_eq_true, if_true, if_false, decide_eq_true_eq,
            decide_eq_false_iff_not] <;> omega
      have low : (signBit negative + exponent * 2 ^ 52 + fraction) % 2 ^ 52 = fraction := by
        cases negative <;> simp only [signBit, Bool.false_eq_true, if_true, if_false] <;> omega
      unfold ofPattern pattern
      simp only [field, sign, exponentBound, dif_pos, Fin.ofNat, low]
  | infinite negative => cases negative <;> decide
  | nan => decide

/-- The whole number that the bits after the sign spell, before scaling. -/
def significandOf (exponent fraction : Nat) : Nat :=
  if exponent = 0 then fraction else 2 ^ 52 + fraction

/-- The power of two that a finite number's significand is multiplied by. -/
def scaleOf (exponent : Nat) : Int := (max exponent 1 : Nat) - 1075

/-- The fields of the number `significand * 2 ^ scale`, where the significand has 53 bits, or fewer
at the least scale -1074.  A significand of 2^53 carries into the exponent; too large a number is
infinite. -/
def assemble (negative : Bool) (significand : Nat) (scale : Int) : Binary64 :=
  let fields := (scale + 1074).toNat * 2 ^ 52 + significand
  if fields < 2047 * 2 ^ 52 then ofPattern (signBit negative + fields) else .infinite negative

/-- The scale at which `numerator / denominator` has a significand of 53 bits, at least -1074. -/
def scaleFor (numerator denominator : Nat) : Int :=
  let guess : Int := (numerator.log2 : Int) - denominator.log2 - 52
  let fits := numerator * 2 ^ (-guess).toNat < 2 ^ 52 * denominator * 2 ^ guess.toNat
  max (if fits then guess - 1 else guess) (-1074)

/-- The number nearest to `± numerator / denominator`; of two the one with an even significand. -/
def ofRatio (negative : Bool) (numerator denominator : Nat) : Binary64 :=
  if numerator = 0 then .finite negative 0 0
  else
    let scale := scaleFor numerator denominator
    let significand :=
      Number.nearest (numerator * 2 ^ (-scale).toNat) (denominator * 2 ^ scale.toNat)
    assemble negative significand scale

/-- The number nearest to `± digits * 10 ^ exponent`.  The first two tests only keep the powers
small: the largest number is below 10^309 and half the smallest above 10^-324. -/
def ofDecimal (negative : Bool) (digits : Nat) (exponent : Int) : Binary64 :=
  let place : Int := (Nat.toDigits 10 digits).length + exponent
  if digits = 0 ∨ place < -330 then .finite negative 0 0
  else if 310 < place then .infinite negative
  else ofRatio negative (digits * 10 ^ exponent.toNat) (10 ^ (-exponent).toNat)

def ofInt (value : Int) : Binary64 := ofRatio (decide (value < 0)) value.natAbs 1

/-- The number with the value of a 32-bit pattern: a sign, eight bits of exponent and 23 of
fraction. A fraction below the normal range is shifted up to its leading bit. -/
def ofSinglePattern (pattern : Nat) : Binary64 :=
  let negative := decide (pattern / 2 ^ 31 % 2 = 1)
  let exponent := pattern / 2 ^ 23 % 2 ^ 8
  let fraction := pattern % 2 ^ 23
  if exponent = 255 then
    if fraction = 0 then .infinite negative else .nan
  else if exponent = 0 then
    if fraction = 0 then .finite negative 0 0
    else
      let lead := fraction.log2
      .finite negative (Fin.ofNat 2047 (lead + 874))
        (Fin.ofNat (2 ^ 52) (fraction * 2 ^ (52 - lead)))
  else .finite negative (Fin.ofNat 2047 (exponent + 896)) (Fin.ofNat (2 ^ 52) (fraction * 2 ^ 29))

/-- The whole number that a number is, if it is one. -/
def toInt? : Binary64 → Option Int
  | .finite negative exponent fraction =>
      let significand := significandOf exponent.val fraction.val
      let scale := scaleOf exponent.val
      let unit := 2 ^ (-scale).toNat
      if significand % unit = 0 then
        let magnitude : Int := (significand / unit * 2 ^ scale.toNat : Nat)
        some (if negative then -magnitude else magnitude)
      else none
  | .infinite _ | .nan => none

def isNegative : Binary64 → Bool
  | .finite negative exponent fraction =>
      negative && decide (significandOf exponent.val fraction.val ≠ 0)
  | .infinite negative => negative
  | .nan => false

/-- Whether a number is greater than `bound`. -/
def exceeds (number : Binary64) (bound : Nat) : Bool :=
  match number with
  | .finite negative exponent fraction =>
      let scale := scaleOf exponent.val
      !negative && decide (bound * 2 ^ (-scale).toNat <
        significandOf exponent.val fraction.val * 2 ^ scale.toNat)
  | .infinite negative => !negative
  | .nan => false

end Binary64

end Carve
