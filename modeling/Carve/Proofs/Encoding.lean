import Carve.Proofs.Binary64.Single
import Carve.Proofs.Value

namespace Carve

namespace ByteOrder

def opposite : ByteOrder → ByteOrder
  | .little => .big
  | .big => .little

theorem lowFirst_append (front back : List UInt8) :
    lowFirst (front ++ back) = lowFirst front + 256 ^ front.length * lowFirst back := by
  induction front with
  | nil => simp [lowFirst]
  | cons byte rest ih =>
      rw [List.cons_append, lowFirst, lowFirst, ih, List.length_cons, Nat.pow_succ', Nat.mul_add,
        Nat.mul_assoc, Nat.add_assoc]

theorem little_value_append (front back : List UInt8) :
    little.value (front ++ back) =
      little.value front + 256 ^ front.length * little.value back :=
  lowFirst_append front back

theorem big_value_append (front back : List UInt8) :
    big.value (front ++ back) = 256 ^ back.length * big.value front + big.value back := by
  have whole := lowFirst_append back.reverse front.reverse
  rw [← List.reverse_append, List.length_reverse, Nat.add_comm] at whole
  exact whole

theorem value_reverse (order : ByteOrder) (bytes : List UInt8) :
    order.opposite.value bytes.reverse = order.value bytes := by
  cases order with
  | little => exact congrArg lowFirst bytes.reverse_reverse
  | big => rfl

/-- Two numbers of so many bytes as one.  The byte order says which of them is the high one. -/
def glue (order : ByteOrder) (width front back : Nat) : Nat :=
  match order with
  | .little => back <<< (8 * width) ||| front
  | .big => front <<< (8 * width) ||| back

theorem value_append (order : ByteOrder) {width : Nat} {front back : List UInt8}
    (frontLength : front.length = width) (backLength : back.length = width) :
    order.value (front ++ back) = order.glue width (order.value front) (order.value back) := by
  have power : 256 ^ width = 2 ^ (8 * width) := by rw [Nat.pow_mul]
  cases order with
  | little =>
      have room : little.value front < 2 ^ (8 * width) := by
        rw [← power, ← frontLength]
        exact little.value_lt front
      rw [little_value_append, glue, ← Nat.shiftLeft_add_eq_or_of_lt room, Nat.shiftLeft_eq,
        frontLength, power, Nat.add_comm, Nat.mul_comm]
  | big =>
      have room : big.value back < 2 ^ (8 * width) := by
        rw [← power, ← backLength]
        exact big.value_lt back
      rw [big_value_append, glue, ← Nat.shiftLeft_add_eq_or_of_lt room, Nat.shiftLeft_eq,
        backLength, power, Nat.mul_comm]

/-- Each of the lower bytes of a number holds eight of its bits. -/
theorem getElem?_lowBytes {width index : Nat} (inside : index < width) (number : Nat) :
    (lowBytes width number)[index]? = some (UInt8.ofNat (number >>> (8 * index) &&& 0xff)) := by
  have masked (word : Nat) : word &&& 0xff = word % 256 := Nat.and_two_pow_sub_one_eq_mod word 8
  induction width generalizing index number with
  | zero => contradiction
  | succ width ih =>
      cases index with
      | zero => simp [lowBytes, masked]
      | succ index =>
          rw [lowBytes, List.getElem?_cons_succ, ih (by omega), Nat.mul_succ, Nat.add_comm,
            Nat.shiftRight_add, Nat.shiftRight_eq_div_pow number 8]

/-- Where the byte with the bits from `8 * index` on stands among so many bytes. -/
def place (order : ByteOrder) (width index : Nat) : Nat :=
  match order with
  | .little => index
  | .big => width - 1 - index

theorem getElem?_spell {width index : Nat} (inside : index < width) (order : ByteOrder)
    (number : Nat) : (order.spell width number)[order.place width index]? =
      some (UInt8.ofNat (number >>> (8 * index) &&& 0xff)) := by
  have lowest := getElem?_lowBytes inside number
  cases order with
  | little => exact lowest
  | big =>
      have length := length_lowBytes width number
      have turned : width - 1 - (width - 1 - index) = index := by omega
      rw [spell, arrange, place, List.getElem?_reverse (by omega), length, turned, lowest]

theorem spell_opposite (order : ByteOrder) (width number : Nat) :
    order.opposite.spell width number = (order.spell width number).reverse := by
  cases order with
  | little => rfl
  | big => exact (List.reverse_reverse _).symm

end ByteOrder

namespace Value

/-- How many bytes a value takes. -/
def width : Value → Nat
  | .uint bits _ | .int bits _ => bits / 8
  | .f32 _ => 4
  | .f64 _ => 8
  | .bytes content => content.size
  | .utf8 text => text.utf8ByteSize

def encode (order : ByteOrder) (value : Value) : Except Fault Bytes :=
  match value with
  | .uint _ number | .int _ number => Integer.encode number value.width order
  | .f32 number => .ok (order.spell value.width number.singlePattern).toArray
  | .f64 number => .ok (order.spell value.width number.pattern).toArray
  | .bytes content => .ok content
  | .utf8 text => .ok text.toUTF8.data

/-- The value that is left of one in its bytes. -/
def stored : Value → Value
  | .f32 number => .f32 number.toSingle
  | value => value

end Value

namespace Integer

variable {number : Int} {width : Nat}

theorem powerOfTwo_natCast (exponent : Nat) : powerOfTwo exponent = 2 ^ exponent := by
  rw [powerOfTwo, if_neg (by omega), Int.toNat_natCast]

theorem fits_unsigned (lower : 0 ≤ number) (upper : number < 2 ^ (8 * width)) :
    fits number width = true := by
  have power := powerOfTwo_natCast (8 * width)
  push_cast at power
  simpa only [fits, if_neg (Int.not_lt.mpr lower), power, decide_eq_true_eq] using upper

theorem fits_signed (positive : 0 < width) (lower : -2 ^ (8 * width - 1) ≤ number)
    (upper : number < 2 ^ (8 * width - 1)) : fits number width = true := by
  by_cases negative : number < 0
  · have power := powerOfTwo_natCast (8 * width - 1)
    have exponent : ((8 * width - 1 : Nat) : Int) = 8 * width - 1 := by omega
    rw [exponent] at power
    simpa only [fits, if_pos negative, power, decide_eq_true_eq] using lower
  · have half : (2 : Int) ^ (8 * width - 1) ≤ 2 ^ (8 * width) := by
      exact_mod_cast Nat.pow_le_pow_right (by decide) (Nat.sub_le (8 * width) 1)
    exact fits_unsigned (by omega) (by omega)

theorem encode_of_fits (inside : fits number width = true) (order : ByteOrder) :
    ∃ bytes, encode number width order = .ok bytes ∧ bytes.size = width ∧
      (order.value bytes.toList : Int) = number % (2 ^ (8 * width) : Nat) := by
  have power : 256 ^ width = 2 ^ (8 * width) := by
    rw [Nat.pow_mul]
  have positive : (0 : Int) < (2 ^ (8 * width) : Nat) := by exact_mod_cast Nat.two_pow_pos _
  have lower := Int.emod_nonneg number (Int.ne_of_gt positive)
  have upper := Int.emod_lt_of_pos number positive
  refine ⟨_, if_pos inside, ?_, ?_⟩
  · simp [ByteOrder.length_spell]
  · simp only [Int.toNat_natCast, ByteOrder.value_spell, power]
    rw [Nat.mod_eq_of_lt (by omega)]
    omega

end Integer

theorem Binary64.pattern_lt (number : Binary64) : number.pattern < 2 ^ 64 := by
  cases number with
  | finite negative exponent fraction =>
      have exponentBound := exponent.isLt
      have fractionBound := fraction.isLt
      cases negative <;> simp only [pattern, signBit, Bool.false_eq_true, if_true, if_false] <;>
        omega
  | infinite negative => cases negative <;> decide
  | nan => decide

theorem Primitive.value_encode {type : Primitive} {value : Value} (order : ByteOrder)
    (holds : type.Holds value.stored) :
    ∃ bytes, value.encode order = .ok bytes ∧ bytes.size = value.width ∧
      value.width = type.width ∧ type.value (order.value bytes.toList) = value.stored := by
  cases value with
  | uint bits number =>
      cases holds with
      | unsigned width lower upper =>
          have whole : 8 * width.bytes / 8 = width.bytes := by omega
          obtain ⟨bytes, encoded, size, read⟩ :=
            Integer.encode_of_fits (Integer.fits_unsigned lower upper) order
          rw [Int.emod_eq_of_lt lower (by exact_mod_cast upper)] at read
          refine ⟨bytes, ?_, ?_, whole, ?_⟩
          · simpa only [Value.encode, Value.width, whole] using encoded
          · simpa only [Value.width, whole] using size
          · simp only [Primitive.value, IntegerType.value, read, IntegerType.bits, Value.stored]
            rfl
  | int bits number =>
      cases holds with
      | signed width lower upper =>
          have whole : 8 * width.bytes / 8 = width.bytes := by omega
          have half : (2 ^ (8 * width.bytes) : Nat) = 2 * 2 ^ (8 * width.bytes - 1) := by
            rw [← Nat.pow_succ']
            have positive := width.bytes_pos
            congr 1
            omega
          obtain ⟨bytes, encoded, size, read⟩ :=
            Integer.encode_of_fits (Integer.fits_signed width.bytes_pos lower upper) order
          have balanced : Int.bmod number (2 ^ (8 * width.bytes)) = number := by
            apply Int.bmod_eq_of_le_mul_two <;> (rw [half]; push_cast; omega)
          refine ⟨bytes, ?_, ?_, whole, ?_⟩
          · simpa only [Value.encode, Value.width, whole] using encoded
          · simpa only [Value.width, whole] using size
          · simp only [Primitive.value, IntegerType.value, read, IntegerType.bits, Value.stored,
              Int.emod_bmod, balanced]
            rfl
  | f32 number =>
      have isSingle : type = .f32 := by
        generalize kept : (Value.f32 number).stored = left at holds
        cases holds <;> first | rfl | cases kept
      subst isSingle
      refine ⟨_, rfl, by simp [ByteOrder.length_spell, Value.width], rfl, ?_⟩
      have inside : number.singlePattern % 256 ^ 4 = number.singlePattern :=
        Nat.mod_eq_of_lt number.singlePattern_lt
      simp only [Value.width, Primitive.value, ByteOrder.value_spell, inside]
      rfl
  | f64 number =>
      cases holds with
      | double =>
          refine ⟨_, rfl, by simp [ByteOrder.length_spell, Value.width], rfl, ?_⟩
          have inside : number.pattern % 256 ^ 8 = number.pattern :=
            Nat.mod_eq_of_lt number.pattern_lt
          simp only [Value.width, Primitive.value, ByteOrder.value_spell, inside,
            Binary64.ofPattern_pattern]
          rfl
  | bytes content | utf8 text => cases holds

theorem Text.fromUTF8?_toUTF8 (text : String) : String.fromUTF8? text.toUTF8 = some text :=
  dif_pos text.isValidUTF8

theorem Content.value?_encode {content : Content Int} {value : Value} (order : ByteOrder)
    (holds : content.Holds value.stored) :
    ∃ bytes, value.encode order = .ok bytes ∧ bytes.size = value.width ∧
      content.value? order bytes = some value.stored := by
  cases content with
  | primitive type =>
      obtain ⟨bytes, encoded, size, _, read⟩ := Primitive.value_encode order holds
      exact ⟨bytes, encoded, size, congrArg some read⟩
  | buffer size =>
      obtain ⟨content, same⟩ := holds
      cases value <;> cases same
      exact ⟨content, rfl, rfl, rfl⟩
  | text size =>
      obtain ⟨text, same⟩ := holds
      cases value <;> cases same
      refine ⟨text.toUTF8.data, rfl, text.size_toByteArray, ?_⟩
      exact congrArg (Option.map Value.utf8) (Text.fromUTF8?_toUTF8 text)

/-- A value of a content is stored as it is. -/
theorem Content.Holds.stored_eq {content : Content Int} {value : Value}
    (holds : content.Holds value) : value.stored = value := by
  cases value with
  | f32 number =>
      cases content with
      | primitive type =>
          generalize kept : Value.f32 number = left at holds
          cases holds <;> cases kept
          exact congrArg Value.f32 (Binary64.toSingle_ofSinglePattern _)
      | buffer size | text size =>
          obtain ⟨_, same⟩ := holds
          contradiction
  | uint bits number | int bits number | f64 number | bytes content | utf8 text => rfl

end Carve
