import Carve.Proofs.Reencoding

namespace Carve

/-- A number is written eight bits at a time. -/
theorem Integer.encode_byte {number : Int} {width index : Nat} {order : ByteOrder} {bytes : Bytes}
    (encoded : encode number width order = .ok bytes) (inside : index < width) :
    bytes[order.place width index]? = some (UInt8.ofNat
      ((number % (2 ^ (8 * width) : Nat)).toNat >>> (8 * index) &&& 0xff)) := by
  unfold encode at encoded
  split at encoded
  · cases encoded
    simpa only [Int.toNat_natCast, List.getElem?_toArray] using
      ByteOrder.getElem?_spell inside order _
  · contradiction

namespace IntegerType

/-- The numbers of the type, negative ones among them if it is signed. -/
def Contains (type : IntegerType) (number : Int) : Prop :=
  if type.signed then -2 ^ (type.bits - 1) ≤ number ∧ number < 2 ^ (type.bits - 1)
  else 0 ≤ number ∧ number < 2 ^ type.bits

/-- A number as a value of the type. -/
def ofNumber (type : IntegerType) (number : Int) : Value :=
  if type.signed then .int type.bits number else .uint type.bits number

variable {type : IntegerType} {number : Int}

theorem holds_iff {value : Value} : (Primitive.integer type).Holds value ↔
    ∃ number, type.Contains number ∧ value = type.ofNumber number := by
  obtain ⟨signed, width⟩ := type
  constructor
  · intro holds
    cases holds with
    | unsigned _ lower upper => exact ⟨_, ⟨lower, upper⟩, rfl⟩
    | signed _ lower upper => exact ⟨_, ⟨lower, upper⟩, rfl⟩
  · rintro ⟨number, contained, rfl⟩
    cases signed with
    | false => exact .unsigned width contained.1 contained.2
    | true => exact .signed width contained.1 contained.2

theorem encode_ofNumber (type : IntegerType) (number : Int) (order : ByteOrder) :
    (type.ofNumber number).encode order = Integer.encode number type.width.bytes order := by
  have whole : 8 * type.width.bytes / 8 = type.width.bytes := by omega
  obtain ⟨signed, width⟩ := type
  cases signed <;> exact congrArg (fun count : Nat => Integer.encode number count order) whole

section Read

variable {order : ByteOrder} {bytes : Bytes} {offset : Int} (nonnegative : 0 ≤ offset)
  (inside : offset + type.width.bytes ≤ bytes.size)
include nonnegative inside

theorem read_eq : (Primitive.integer type).read order bytes offset =
    .ok (type.value (order.value (bytes.slice offset (offset + type.width.bytes)).toList)) :=
  Primitive.read_eq nonnegative inside

theorem length_slice :
    (bytes.slice offset (offset + type.width.bytes)).toList.length = type.width.bytes := by
  rw [Bytes.slice_of_le nonnegative (by omega) inside, Array.length_toList, Array.size_extract]
  omega

/-- What is read of any bytes is a number of the type, and is written as these bytes. -/
theorem encode_of_read :
    ∃ number, (Primitive.integer type).read order bytes offset = .ok (type.ofNumber number) ∧
      type.Contains number ∧ Integer.encode number type.width.bytes order =
        .ok (bytes.slice offset (offset + type.width.bytes)) := by
  have length := length_slice nonnegative inside
  have whole := order.spell_value (bytes.slice offset (offset + type.width.bytes)).toList
  have room : order.value (bytes.slice offset (offset + type.width.bytes)).toList <
      2 ^ (8 * type.width.bytes) := by
    have bound := order.value_lt (bytes.slice offset (offset + type.width.bytes)).toList
    rw [length] at bound
    rwa [Nat.pow_mul]
  rw [length] at whole
  have written := type.encode_value room order
  obtain ⟨number, contained, same⟩ := holds_iff.mp (Primitive.holds_value (.integer type) room)
  refine ⟨number, (read_eq nonnegative inside).trans (congrArg Except.ok same), contained, ?_⟩
  rw [← encode_ofNumber, ← same]
  exact written.trans (by rw [whole, Array.toArray_toList])

end Read

/-- Bytes are read as the same value wherever they stand. -/
theorem read_middle {middle : Bytes} (size : middle.size = type.width.bytes) (order : ByteOrder)
    (front back : Bytes) :
    (Primitive.integer type).read order (front ++ middle ++ back) front.size =
      .ok (type.value (order.value middle.toList)) := by
  have inside : (front.size : Int) + type.width.bytes ≤ (front ++ middle ++ back).size := by
    simp only [Array.size_append]
    omega
  have stop : ((front.size : Int) + type.width.bytes).toNat = front.size + middle.size := by omega
  rw [read_eq (Int.natCast_nonneg _) inside,
    Bytes.slice_of_le (Int.natCast_nonneg _) (by omega) inside, stop, Int.toNat_natCast,
    Bytes.extract_middle]

/-- What is written of a number of the type is read as that number. -/
theorem read_of_encode {number : Int} (contained : type.Contains number) (order : ByteOrder) :
    ∃ written, Integer.encode number type.width.bytes order = .ok written ∧
      written.size = type.width.bytes ∧
      ∀ front back : Bytes, (Primitive.integer type).read order (front ++ written ++ back)
        front.size = .ok (type.ofNumber number) := by
  have stored : (type.ofNumber number).stored = type.ofNumber number := by
    unfold ofNumber
    split <;> rfl
  have holds : (Primitive.integer type).Holds (type.ofNumber number).stored := by
    rw [stored]
    exact holds_iff.mpr ⟨number, contained, rfl⟩
  obtain ⟨written, encoded, size, width, read⟩ := Primitive.value_encode order holds
  rw [encode_ofNumber] at encoded
  have taken : written.size = type.width.bytes := size.trans width
  refine ⟨written, encoded, taken, fun front back => ?_⟩
  rw [read_middle taken order front back]
  exact congrArg Except.ok (read.trans stored)

/-- Sixteen bytes are read as two numbers of eight bytes. -/
theorem read_sixteen (signed : Bool) {order : ByteOrder} {bytes : Bytes} {offset : Int}
    (nonnegative : 0 ≤ offset) (inside : offset + 16 ≤ bytes.size) :
    ∃ first second : Nat,
      (Primitive.integer ⟨false, .eight⟩).read order bytes offset = .ok (.uint 64 first) ∧
      (Primitive.integer ⟨false, .eight⟩).read order bytes (offset + 8) = .ok (.uint 64 second) ∧
      (Primitive.integer ⟨signed, .sixteen⟩).read order bytes offset =
        .ok (value ⟨signed, .sixteen⟩ (order.glue 8 first second)) := by
  have halves : bytes.slice offset (offset + 8) ++ bytes.slice (offset + 8) (offset + 8 + 8) =
      bytes.slice offset (offset + 16) := by
    rw [Bytes.slice_of_le nonnegative (by omega) inside,
      Bytes.slice_of_le nonnegative (by omega) (by omega),
      Bytes.slice_of_le (by omega) (by omega) (by omega), Array.extract_append_extract]
    congr 1 <;> omega
  have eight : ((IntegerType.width ⟨false, .eight⟩).bytes : Int) = 8 := rfl
  have first : offset + (IntegerType.width ⟨false, .eight⟩).bytes ≤ bytes.size := by omega
  have second : offset + 8 + (IntegerType.width ⟨false, .eight⟩).bytes ≤ bytes.size := by omega
  refine ⟨_, _, read_eq nonnegative first, read_eq (by omega) second, ?_⟩
  have glued := order.value_append (length_slice nonnegative first) (length_slice (by omega) second)
  rw [← Array.toList_append, eight, halves] at glued
  have whole : (Primitive.integer ⟨signed, .sixteen⟩).read order bytes offset =
      .ok (value ⟨signed, .sixteen⟩ (order.value (bytes.slice offset (offset + 16)).toList)) :=
    read_eq nonnegative inside
  rw [whole, glued]
  rfl

/-- Reading and writing integers are inverse to each other, and reversed bytes are read as the same
number in the other byte order. -/
theorem read_encode (type : IntegerType) (order : ByteOrder) :
    let read := (Primitive.integer type).read
    let width := type.width.bytes
    (∀ (bytes : Bytes) (offset : Int), 0 ≤ offset → offset + width ≤ bytes.size →
      ∃ number, read order bytes offset = .ok (type.ofNumber number) ∧ type.Contains number ∧
        Integer.encode number width order = .ok (bytes.slice offset (offset + width))) ∧
    (∀ number, type.Contains number →
      ∃ written, Integer.encode number width order = .ok written ∧ written.size = width ∧
        ∀ front back, read order (front ++ written ++ back) front.size =
          .ok (type.ofNumber number)) ∧
    ∀ middle : Bytes, middle.size = width → ∀ front back otherFront otherBack : Bytes,
      read order.opposite (otherFront ++ middle.reverse ++ otherBack) otherFront.size =
        read order (front ++ middle ++ back) front.size := by
  intro read width
  refine ⟨fun bytes offset nonnegative inside => encode_of_read nonnegative inside,
    fun number contained => read_of_encode contained order,
    fun middle size front back otherFront otherBack => ?_⟩
  have sizeReversed : middle.reverse.size = type.width.bytes := by rwa [Array.size_reverse]
  calc read order.opposite (otherFront ++ middle.reverse ++ otherBack) otherFront.size
      = .ok (type.value (order.opposite.value middle.reverse.toList)) :=
        read_middle sizeReversed order.opposite otherFront otherBack
    _ = .ok (type.value (order.value middle.toList)) := by
        rw [Array.toList_reverse, ByteOrder.value_reverse]
    _ = read order (front ++ middle ++ back) front.size :=
        (read_middle size order front back).symm

/-- A negative number is written, read behind another byte and written again, and read in the other
byte order. -/
theorem read_encode_sample :
    Integer.encode (-2) 2 .big = .ok #[0xff, 0xfe] ∧
      (Primitive.integer ⟨true, .two⟩).read .big #[0x07, 0xff, 0xfe] 1 = .ok (.int 16 (-2)) ∧
      Integer.encode (-2) 2 .big = .ok (Bytes.slice #[0x07, 0xff, 0xfe] 1 3) ∧
      (Primitive.integer ⟨true, .two⟩).read .little #[0xfe, 0xff] 0 = .ok (.int 16 (-2)) := by
  obtain ⟨reads, writes, turns⟩ := read_encode ⟨true, .two⟩ .big
  obtain ⟨written, encoded, _, stands⟩ := writes (-2) ⟨by decide, by decide⟩
  have bytes : written = #[0xff, 0xfe] := Except.ok.inj (encoded.symm.trans (by decide))
  subst bytes
  have big : (Primitive.integer ⟨true, .two⟩).read .big #[0x07, 0xff, 0xfe] 1 =
      .ok (.int 16 (-2)) := stands #[0x07] #[]
  obtain ⟨number, found, _, again⟩ := reads #[0x07, 0xff, 0xfe] 1 (by decide) (by decide)
  cases found.symm.trans big
  have reversed : (#[0xff, 0xfe] : Bytes).reverse = #[0xfe, 0xff] := by simp
  have little := turns #[0xff, 0xfe] rfl #[0x07] #[] #[] #[]
  rw [reversed] at little
  exact ⟨encoded, big, again, little.trans big⟩

end IntegerType

end Carve
