import Carve.Proofs.Encoding
import Carve.Proofs.Spans

namespace Carve

namespace Binary64

/-- A pattern of 64 bits is that of the number it stands for. -/
theorem pattern_ofPattern {pattern : Nat} (number : ofPattern pattern ≠ .nan) :
    (ofPattern pattern).pattern = pattern % 2 ^ 64 := by
  have sign : signBit (decide (pattern / 2 ^ 63 % 2 = 1)) = pattern / 2 ^ 63 % 2 * 2 ^ 63 := by
    rcases Nat.mod_two_eq_zero_or_one (pattern / 2 ^ 63) with even | odd
    · rw [even]
      rfl
    · rw [odd]
      rfl
  unfold ofPattern at number ⊢
  dsimp only at number ⊢
  split
  · next finite =>
      simp only [Binary64.pattern, sign, Fin.ofNat]
      omega
  · next special =>
      rw [dif_neg special] at number
      split
      · next zero =>
          have fraction : pattern % 2 ^ 52 = 0 := congrArg Fin.val zero
          simp only [Binary64.pattern, sign]
          omega
      · next nonzero =>
          rw [if_neg nonzero] at number
          contradiction

end Binary64

namespace Integer

/-- A number is written as the bytes of its two's complement. -/
theorem encode_eq_spell {number : Int} {width pattern : Nat} (inside : fits number width = true)
    (same : number % (2 ^ (8 * width) : Nat) = pattern) (order : ByteOrder) :
    encode number width order = .ok (order.spell width pattern).toArray := by
  have whole : ((width : Int)).toNat = width := Int.toNat_natCast width
  rw [encode, if_pos inside]
  simp only [whole, same, Int.toNat_natCast]

end Integer

namespace Value

/-- A floating-point pattern that is no number was read. -/
def IsNan : Value → Prop
  | .f32 number | .f64 number => number = .nan
  | .uint _ _ | .int _ _ | .bytes _ | .utf8 _ => False

end Value

theorem IntegerType.encode_value (type : IntegerType) {pattern : Nat}
    (bound : pattern < 2 ^ (8 * type.width.bytes)) (order : ByteOrder) :
    (type.value pattern).encode order = .ok (order.spell type.width.bytes pattern).toArray := by
  have holds : (Primitive.integer type).Holds (type.value pattern) :=
    Primitive.holds_value (.integer type) bound
  have whole : 8 * type.width.bytes / 8 = type.width.bytes := by omega
  have unsigned : (pattern : Int) % (2 ^ (8 * type.width.bytes) : Nat) = pattern :=
    Int.emod_eq_of_lt (Int.natCast_nonneg _) (by exact_mod_cast bound)
  obtain ⟨signed, width⟩ := type
  cases signed with
  | false =>
      cases holds with
      | unsigned _ lower upper =>
          change Integer.encode pattern (8 * width.bytes / 8 : Nat) order = _
          rw [whole]
          exact Integer.encode_eq_spell (Integer.fits_unsigned lower upper) unsigned order
  | true =>
      cases holds with
      | signed _ lower upper =>
          change Integer.encode (Int.bmod pattern (2 ^ (8 * width.bytes)))
            (8 * width.bytes / 8 : Nat) order = _
          rw [whole]
          have balanced : Int.bmod pattern (2 ^ (8 * width.bytes)) % (2 ^ (8 * width.bytes) : Nat) =
              pattern := Int.bmod_emod.trans unsigned
          have inside := Integer.fits_signed width.bytes_pos lower upper
          exact Integer.encode_eq_spell inside balanced order

theorem Primitive.encode_value (type : Primitive) {pattern : Nat}
    (bound : pattern < 2 ^ (8 * type.width)) (order : ByteOrder)
    (number : ¬ (type.value pattern).IsNan) :
    (type.value pattern).encode order = .ok (order.spell type.width pattern).toArray := by
  match type with
  | .integer type => exact type.encode_value bound order
  | .f32 =>
      have exact := Binary64.singlePattern_ofSinglePattern number
      rw [Nat.mod_eq_of_lt (by simpa [width] using bound)] at exact
      change Except.ok (order.spell 4 (Binary64.ofSinglePattern pattern).singlePattern).toArray = _
      rw [exact]
      rfl
  | .f64 =>
      have exact := Binary64.pattern_ofPattern number
      rw [Nat.mod_eq_of_lt (by simpa [width] using bound)] at exact
      change Except.ok (order.spell 8 (Binary64.ofPattern pattern).pattern).toArray = _
      rw [exact]
      rfl

theorem Text.toUTF8_of_fromUTF8? {bytes : ByteArray} {text : String}
    (read : String.fromUTF8? bytes = some text) : text.toUTF8 = bytes := by
  unfold String.fromUTF8? at read
  split at read
  · cases read
    rfl
  · contradiction

/-- What a content finds in bytes is written as these bytes. -/
theorem Content.encode_of_value? {content : Content Int} {order : ByteOrder} {bytes : Bytes}
    {value : Value} (width : ∀ type, content = .primitive type → bytes.size = type.width)
    (valued : content.value? order bytes = some value) (number : ¬ value.IsNan) :
    value.encode order = .ok bytes := by
  cases content with
  | primitive type =>
      cases valued
      have size : bytes.toList.length = type.width := width type rfl
      have bound := order.value_lt bytes.toList
      have whole := order.spell_value bytes.toList
      rw [size] at bound whole
      rw [type.encode_value (by rwa [Nat.pow_mul]) order number, whole, Array.toArray_toList]
  | buffer size =>
      cases valued
      rfl
  | text size =>
      obtain ⟨text, read, rfl⟩ := Option.map_eq_some_iff.mp valued
      have same := Text.toUTF8_of_fromUTF8? read
      simp only [Value.encode, same]

theorem Primitive.Holds.width_eq {type : Primitive} {value : Value} (holds : type.Holds value) :
    value.width = type.width := by
  cases holds with
  | unsigned width lower upper | signed width lower upper =>
      simp only [Value.width, Primitive.width]
      omega
  | single pattern => rfl
  | double number => rfl

namespace Layout

/-- Encoding undoes decoding.  A decoded candidate has all fields of its structure, each with a
value of its content, and every value but a floating-point pattern that is no number is written back
as the bytes it was read from. -/
theorem encode_of_candidate {document : Document} {streamLength : Option Int} {plan : Plan}
    (compiled : Plan.ofDocument document streamLength = .ok plan) {layout : Layout}
    (declared : layout ∈ plan.layouts) {stream : Bytes} (small : stream.size < 2 ^ 53)
    {maxSize : Int} {store : Store} {place : Nat} {record : Record}
    (decoded : layout.candidate stream maxSize store place = .ok record) :
    record.fields.names = layout.fields.map Field.name ∧
      ∀ field ∈ layout.fields, ∃ reading, record.fields.find? field.name = some reading ∧
        reading.Inside stream.size ∧ field.content.Holds reading.value ∧
        (∀ type, field.content = .primitive type →
          reading.size = type.width ∧ reading.value.width = type.width) ∧
        (¬ reading.value.IsNan → reading.value.encode layout.byteOrder =
          .ok (stream.slice reading.offset (reading.offset + reading.size))) := by
  obtain ⟨earlier, wellFormed⟩ := (Plan.wellFormed_ofDocument compiled).layout declared
  refine ⟨(wellFormed.candidate_reads small decoded).2.1, fun field member => ?_⟩
  obtain ⟨before, after, split⟩ := List.append_of_mem member
  obtain ⟨reached, cursor, reading, nonnegative, read, found, _⟩ :=
    wellFormed.candidate_reading small decoded split
  have admissible := wellFormed.admissible field member
  have within := admissible.reading_inside small nonnegative read
  have holds := admissible.reading_holds small nonnegative read
  obtain ⟨_, sized, enough, valued⟩ := (admissible.reading_eq_ok small nonnegative).mp read
  have width (type : Primitive) (content : field.content = .primitive type) :
      reading.size = type.width := by
    simpa [Field.extent, content, eq_comm] using sized
  refine ⟨reading, found, within, holds, fun type content => ⟨width type content, ?_⟩, ?_⟩
  · rw [content] at holds
    exact holds.width_eq
  · intro number
    obtain ⟨lower, positive, upper⟩ := within
    rw [Bytes.slice_of_le lower (by omega) upper]
    refine Content.encode_of_value? (fun type content => ?_) valued number
    have taken := width type content
    rw [Array.size_extract]
    omega

/-- A negative integer and a text with a byte-order mark are written back as they stood. -/
theorem encode_of_candidate_sample :
    (Value.int 16 (-2)).encode .big = .ok (sampleStream.slice 4 6) ∧
      (Value.utf8 "\uFEFFA").encode .big = .ok (sampleStream.slice 8 12) := by
  obtain ⟨_, fields⟩ :=
    encode_of_candidate Plan.ofDocument_sampleFooterDocument (by simp : Plan.sampleFooter ∈ _)
      (by decide : sampleStream.size < 2 ^ 53) candidate_sampleStream
  obtain ⟨shift, foundShift, _, _, _, writtenShift⟩ := fields _ (.head _)
  obtain ⟨note, foundNote, _, _, _, writtenNote⟩ := fields _ (.tail _ (.tail _ (.head _)))
  cases foundShift
  cases foundNote
  exact ⟨writtenShift id, writtenNote id⟩

end Layout

end Carve
