import Carve.Proofs.Encoding
import Mathlib.Data.Nat.Digits.Defs

namespace Carve

namespace ByteOrder

/-- The number that bytes spell as digits to the base 256, the lowest or the highest first. -/
def positional (order : ByteOrder) (bytes : List UInt8) : Nat :=
  match order with
  | .little => Nat.ofDigits 256 (bytes.map UInt8.toNat)
  | .big => Text.ofDigits 256 (bytes.map UInt8.toNat)

theorem little_positional (bytes : List UInt8) : little.positional bytes = lowFirst bytes := by
  induction bytes with
  | nil => rfl
  | cons byte rest ih =>
      simp only [positional] at ih
      simp [positional, lowFirst, Nat.ofDigits_cons, ih]

theorem big_positional_reverse (bytes : List UInt8) :
    big.positional bytes.reverse = lowFirst bytes := by
  induction bytes with
  | nil => rfl
  | cons byte rest ih =>
      simp only [positional, Text.ofDigits] at ih
      simp only [positional, Text.ofDigits, List.reverse_cons, List.map_append, List.foldl_append,
        ih, lowFirst]
      exact Nat.add_comm _ _

/-- What bytes are read as is what their digits spell. -/
theorem positional_eq_value (order : ByteOrder) (bytes : List UInt8) :
    order.positional bytes = order.value bytes := by
  cases order with
  | little => exact little_positional bytes
  | big =>
      have turned := big_positional_reverse bytes.reverse
      rwa [List.reverse_reverse] at turned

end ByteOrder

namespace Integer

variable {number other : Int} {width : Nat} {order : ByteOrder} {bytes : Bytes}

theorem fits_iff_of_pos (positive : 0 < width) : fits number width = true ↔
    -2 ^ (8 * width - 1) ≤ number ∧ number < 2 ^ (8 * width) := by
  have room : (0 : Int) < 2 ^ (8 * width) := Int.pow_pos (by decide)
  have half : (0 : Int) < 2 ^ (8 * width - 1) := Int.pow_pos (by decide)
  have whole := powerOfTwo_natCast (8 * width)
  have lower := powerOfTwo_natCast (8 * width - 1)
  rw [show ((8 * width - 1 : Nat) : Int) = 8 * width - 1 by omega] at lower
  push_cast at whole
  rw [fits, whole, lower]
  split <;> simp only [decide_eq_true_eq] <;> omega

/-- Without any byte there is only zero. -/
theorem fits_zero : fits number (0 : Nat) = true ↔ number = 0 := by
  have none : powerOfTwo (8 * (0 : Nat) - 1) = 0 := rfl
  have one : powerOfTwo (8 * (0 : Nat)) = 1 := rfl
  rw [fits, none, one]
  split <;> simp only [decide_eq_true_eq] <;> omega

/-- The bounds of every width at once. -/
theorem fits_bounds (inside : fits number width = true) :
    -2 ^ (8 * width) ≤ 2 * number ∧ number < 2 ^ (8 * width) := by
  rcases Nat.eq_zero_or_pos width with rfl | positive
  · rw [fits_zero] at inside
    subst inside
    decide
  · obtain ⟨lower, upper⟩ := (fits_iff_of_pos positive).mp inside
    have double : (2 : Int) ^ (8 * width) = 2 * 2 ^ (8 * width - 1) := by
      rw [← Int.pow_succ']
      congr 1
      omega
    omega

theorem encode_exists_iff :
    (∃ bytes, encode number width order = .ok bytes) ↔ fits number width = true := by
  rw [encode]
  split <;> simp_all

theorem fits_of_encode (encoded : encode number width order = .ok bytes) :
    fits number width = true :=
  encode_exists_iff.mp ⟨bytes, encoded⟩

theorem encode_of_not_fits (outside : fits number width = false) :
    encode number width order = .error (.doesNotFit number width) := by
  rw [encode, outside]
  rfl

theorem positional_of_encode (encoded : encode number width order = .ok bytes) :
    bytes.size = width ∧ (order.positional bytes.toList : Int) = number % 2 ^ (8 * width) := by
  obtain ⟨written, same, size, read⟩ := encode_of_fits (fits_of_encode encoded) order
  cases encoded.symm.trans same
  rw [ByteOrder.positional_eq_value, read]
  exact ⟨size, by push_cast; rfl⟩

theorem encode_opposite (encoded : encode number width order = .ok bytes) :
    encode number width order.opposite = .ok bytes.reverse := by
  have inside := fits_of_encode encoded
  rw [encode, if_pos inside] at encoded ⊢
  cases encoded
  simp [ByteOrder.spell_opposite]

/-- The same bytes are written of two numbers only if these are equal or a whole turn apart. -/
theorem apart_of_encode (encoded : encode number width order = .ok bytes)
    (also : encode other width order = .ok bytes) :
    number = other ∨ (number - other).natAbs = 2 ^ (8 * width) := by
  have remainders : number % 2 ^ (8 * width) = other % 2 ^ (8 * width) :=
    (positional_of_encode encoded).2.symm.trans (positional_of_encode also).2
  obtain ⟨lower, upper⟩ := fits_bounds (fits_of_encode encoded)
  obtain ⟨otherLower, otherUpper⟩ := fits_bounds (fits_of_encode also)
  have magnitude : ((2 ^ (8 * width) : Nat) : Int) = 2 ^ (8 * width) := by push_cast; rfl
  have room : (0 : Int) < 2 ^ (8 * width) := Int.pow_pos (by decide)
  obtain ⟨turns, distance⟩ := Int.dvd_of_emod_eq_zero
    (Int.emod_eq_emod_iff_emod_sub_eq_zero.mp remainders)
  generalize (2 : Int) ^ (8 * width) = turn at *
  have fewer : turns < 2 := Int.lt_of_mul_lt_mul_left (by omega : turn * turns < turn * 2) room.le
  have more : -2 < turns := Int.lt_of_mul_lt_mul_left (by omega : turn * -2 < turn * turns) room.le
  obtain rfl | rfl | rfl : turns = -1 ∨ turns = 0 ∨ turns = 1 := by omega
  all_goals omega

/-- A number is written in just as many bytes as are asked for if it fits in them, and else not at
all.  It fits as an unsigned number or as a negative one in two's complement.  The bytes are digits
of the number, in either order, and they tell it from all others but the one a whole turn away. -/
theorem encode_exact (number : Int) (width : Nat) :
    (∀ order, (∃ bytes, encode number width order = .ok bytes) ↔ fits number width = true) ∧
    (fits number width = true ↔
      if width = 0 then number = 0
      else -2 ^ (8 * width - 1) ≤ number ∧ number < 2 ^ (8 * width)) ∧
    (fits number width = false →
      ∀ order, encode number width order = .error (.doesNotFit number width)) ∧
    (∀ order bytes, encode number width order = .ok bytes →
      bytes.size = width ∧ (order.positional bytes.toList : Int) = number % 2 ^ (8 * width)) ∧
    (∀ bytes, encode number width .little = .ok bytes →
      encode number width .big = .ok bytes.reverse) ∧
    ∀ other order bytes, encode number width order = .ok bytes →
      encode other width order = .ok bytes →
        number = other ∨ (number - other).natAbs = 2 ^ (8 * width) := by
  refine ⟨fun order => encode_exists_iff, ?_, fun outside order => encode_of_not_fits outside,
    fun order bytes => positional_of_encode, fun bytes => encode_opposite,
    fun other order bytes => apart_of_encode⟩
  rcases Nat.eq_zero_or_pos width with rfl | positive
  · rw [if_pos rfl, fits_zero]
  · rw [if_neg (Nat.ne_of_gt positive), fits_iff_of_pos positive]

/-- Two bytes hold a negative number and an unsigned one in the same way, and -1 does not fit in no
bytes at all. -/
theorem encode_exact_sample :
    encode (-2) 2 .little = .ok #[0xfe, 0xff] ∧ encode (-2) 2 .big = .ok #[0xff, 0xfe] ∧
      (ByteOrder.big.positional [0xff, 0xfe] : Int) = -2 % 2 ^ 16 ∧
      (-2 - 65534 : Int).natAbs = 2 ^ 16 ∧
      encode 65536 2 .big = .error (.doesNotFit 65536 2) ∧
      encode (-1) 0 .big = .error (.doesNotFit (-1) 0) := by
  obtain ⟨_, _, _, digits, turned, apart⟩ := encode_exact (-2) 2
  have little : encode (-2) (2 : Nat) .little = .ok #[0xfe, 0xff] := by decide
  have big : encode (-2) (2 : Nat) .big = .ok #[0xff, 0xfe] := by simpa using turned _ little
  have unsigned : encode 65534 (2 : Nat) .big = .ok #[0xff, 0xfe] := by decide
  obtain ⟨_, _, wide, _⟩ := encode_exact 65536 2
  obtain ⟨_, _, none, _⟩ := encode_exact (-1) 0
  refine ⟨little, big, (digits _ _ big).2, ?_, wide (by decide) .big, none (by decide) .big⟩
  exact (apart _ _ _ big unsigned).resolve_left (by decide)

end Integer

end Carve
