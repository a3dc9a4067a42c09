/-!
Plain numbers: offsets, sizes, cursors, lengths and margins.

They are whole numbers of which 53 significant bits are kept after every sum or difference, to the
nearest such number and to the even one of two.  Up to 2^53 nothing is lost (`round_of_natAbs_le`),
so a sum of offsets inside one stream is exact.
-/

namespace Carve

/-- Powers with a natural exponent come before the powers of a monoid, so that a module which has
those reads `2 ^ 53` in the same way as one that does not. -/
@[default_instance 20000]
instance (priority := 2000) power {α : Type} [NatPow α] : Pow α Nat := instPowNat

namespace Number

/-- The whole number nearest to `numerator / denominator`; a half goes to the even neighbour. -/
def nearest (numerator denominator : Nat) : Nat :=
  let quotient := numerator / denominator
  let twice := 2 * (numerator % denominator)
  if twice < denominator then quotient
  else if twice = denominator then quotient + quotient % 2
  else quotient + 1

/-- The number of 53 significant bits nearest to `magnitude`. -/
def roundMagnitude (magnitude : Nat) : Nat :=
  if magnitude ≤ 2 ^ 53 then magnitude
  else
    let unit := 2 ^ (magnitude.log2 - 52)
    nearest magnitude unit * unit

/-- The plain number nearest to `value`. -/
def round (value : Int) : Int :=
  value.sign * roundMagnitude value.natAbs

def add (left right : Int) : Int := round (left + right)

def sub (left right : Int) : Int := round (left - right)

/-- The largest magnitude below which every whole number is a plain number of its own. -/
def maxSafe : Nat := 2 ^ 53 - 1

theorem round_of_natAbs_le {value : Int} (small : value.natAbs ≤ 2 ^ 53) : round value = value := by
  unfold round roundMagnitude
  rw [if_pos small, Int.sign_mul_natAbs]

theorem add_of_natAbs_le {left right : Int} (small : (left + right).natAbs ≤ 2 ^ 53) :
    add left right = left + right :=
  round_of_natAbs_le small

theorem sub_of_natAbs_le {left right : Int} (small : (left - right).natAbs ≤ 2 ^ 53) :
    sub left right = left - right :=
  round_of_natAbs_le small

end Number

end Carve
