import Carve.Proofs.Field.Reading

namespace Carve

/-- The values of a primitive type: integers of its width in its range, numbers of its precision. -/
inductive Primitive.Holds : Primitive → Value → Prop
  | unsigned (width : Width) {number : Int} (lower : 0 ≤ number)
      (upper : number < 2 ^ (8 * width.bytes)) :
      Holds (.integer { signed := false, width }) (.uint (8 * width.bytes) number)
  | signed (width : Width) {number : Int} (lower : -2 ^ (8 * width.bytes - 1) ≤ number)
      (upper : number < 2 ^ (8 * width.bytes - 1)) :
      Holds (.integer { signed := true, width }) (.int (8 * width.bytes) number)
  | single (pattern : Nat) : Holds .f32 (.f32 (.ofSinglePattern pattern))
  | double (number : Binary64) : Holds .f64 (.f64 number)

def Content.Holds (content : Content Int) (value : Value) : Prop :=
  match content with
  | .primitive type => type.Holds value
  | .buffer _ => ∃ bytes, value = .bytes bytes
  | .text _ => ∃ text, value = .utf8 text

theorem Width.bytes_pos (width : Width) : 0 < width.bytes := by
  cases width <;> decide

theorem Width.bytes_le (width : Width) : width.bytes ≤ 16 := by
  cases width <;> decide

theorem Primitive.width_le (type : Primitive) : type.width ≤ 16 := by
  cases type with
  | integer type => exact type.width.bytes_le
  | f32 | f64 => decide

/-- A type is read of the bytes from its place on, as many as it takes. -/
theorem Primitive.read_eq {type : Primitive} {order : ByteOrder} {bytes : Bytes} {offset : Int}
    (nonnegative : 0 ≤ offset) (inside : offset + type.width ≤ bytes.size) :
    type.read order bytes offset =
      .ok (type.value (order.value (bytes.slice offset (offset + type.width)).toList)) := by
  have stop : (offset + type.width).toNat = offset.toNat + type.width := by omega
  rw [Bytes.slice_of_le nonnegative (by omega) inside, stop]
  exact if_pos ⟨nonnegative, inside⟩

theorem Primitive.holds_value (type : Primitive) {pattern : Nat}
    (bound : pattern < 2 ^ (8 * type.width)) : type.Holds (type.value pattern) := by
  match type with
  | .f32 => exact .single pattern
  | .f64 => exact .double _
  | .integer { signed := false, width } =>
      refine .unsigned width (by omega) ?_
      exact_mod_cast bound
  | .integer { signed := true, width } =>
      have positive := width.bytes_pos
      have half : (2 ^ (8 * width.bytes) : Nat) = 2 * 2 ^ (8 * width.bytes - 1) := by
        rw [← Nat.pow_succ']
        congr 1
        omega
      have room : 0 < 2 ^ (8 * width.bytes) := Nat.two_pow_pos _
      have lower := Int.le_bmod (x := pattern) room
      have upper := Int.bmod_lt (x := pattern) room
      rw [half] at lower upper
      push_cast at lower upper
      refine .signed width ?_ ?_ <;> (simp only [IntegerType.bits]; rw [half]; omega)

theorem Content.holds_of_value {content : Content Int} {order : ByteOrder} {bytes : Bytes}
    {value : Value} (width : ∀ type, content = .primitive type → bytes.size = type.width)
    (valued : content.value? order bytes = some value) : content.Holds value := by
  cases content with
  | primitive type =>
      cases valued
      refine type.holds_value ?_
      have bound := order.value_lt bytes.toList
      rw [Array.length_toList, width type rfl] at bound
      rwa [Nat.pow_mul]
  | buffer size =>
      cases valued
      exact ⟨bytes, rfl⟩
  | text size =>
      obtain ⟨text, _, rfl⟩ := Option.map_eq_some_iff.mp valued
      exact ⟨text, rfl⟩

/-- An integer that a size may refer to supplies one. -/
theorem Content.Holds.size_exists {content : Content Int} {value : Value}
    (integer : content.isReferenceable = true) (holds : content.Holds value) :
    ∃ number, value.size? = some number := by
  cases content with
  | buffer size | text size => contradiction
  | primitive type =>
      simp only [Content.isReferenceable, Primitive.isReferenceable, Bool.and_eq_true,
        decide_eq_true_eq] at integer
      cases holds with
      | unsigned width lower upper => exact ⟨_, if_pos integer.2⟩
      | signed width lower upper => exact ⟨_, if_pos integer.2⟩
      | single pattern => exact absurd integer.1 (by decide)
      | double number => exact absurd integer.1 (by decide)

theorem Field.Admissible.reading_holds {field : Field Int} {context : DecodeContext}
    {readings : Table Reading} {stream : Bytes} {cursor : Int} (admissible : field.Admissible)
    (small : stream.size < 2 ^ 53) (nonnegative : 0 ≤ cursor) {result : Reading}
    (read : field.reading context readings stream cursor = .ok result) :
    field.content.Holds result.value := by
  obtain ⟨lower, positive, upper⟩ := admissible.reading_inside small nonnegative read
  obtain ⟨placed, sized, enough, valued⟩ := (admissible.reading_eq_ok small nonnegative).mp read
  refine Content.holds_of_value ?_ valued
  intro type content
  simp only [Field.extent, content, Except.ok.injEq] at sized
  simp only [Array.size_extract]
  omega

end Carve
