import Carve.Proofs.Binary64.Interchange
import Carve.Proofs.Integer.Exact
import Carve.Proofs.Reencoding

namespace Carve

open BinaryFormat (single double)

theorem Primitive.read_inside {type : Primitive} {order : ByteOrder} {bytes : Bytes} {offset : Int}
    {value : Value}
    (read : type.read order bytes offset = .ok value) :
    0 ≤ offset ∧ offset + type.width ≤ bytes.size := by
  unfold Primitive.read at read
  split at read
  · assumption
  · contradiction

/-- A field holds what is read of its type at its place. -/
theorem Field.decode_of_read {field : Field Int} {context : DecodeContext}
    {readings : Table Reading} {stream : Bytes} {cursor position : Int} {type : Primitive}
    {value : Value}
    (content : field.content = .primitive type)
    (placed : field.position cursor stream.size = .ok position)
    (read : type.read context.byteOrder stream position = .ok value) :
    field.decode context readings stream cursor =
      .ok { value, offset := position, size := type.width } := by
  have inside := Primitive.read_inside read
  have narrow := type.width_le
  have enough : ¬ Number.sub stream.size position < type.width := by
    intro short
    have rounded : Number.round (stream.size - position) ≤ type.width - 1 := by
      exact Int.le_sub_one_of_lt short
    rw [Number.round_le_iff (by omega) (by omega)] at rounded
    omega
  simp only [decode, placed, content, decodePrimitive, require, if_neg enough, read]

namespace Binary64

/-- No two patterns of 32 bits are read as the same number. -/
theorem ofSinglePattern_injective {pattern other : Nat} (bound : pattern < 2 ^ 32)
    (otherBound : other < 2 ^ 32) (number : ofSinglePattern pattern ≠ .nan)
    (same : ofSinglePattern pattern = ofSinglePattern other) : pattern = other := by
  calc pattern = (ofSinglePattern pattern).singlePattern := by
        rw [singlePattern_ofSinglePattern number, Nat.mod_eq_of_lt bound]
    _ = other := by
        rw [same, singlePattern_ofSinglePattern (same ▸ number), Nat.mod_eq_of_lt otherBound]

theorem pattern_injective {number other : Binary64} (same : number.pattern = other.pattern) :
    number = other := by
  rw [← ofPattern_pattern number, same, ofPattern_pattern]

theorem datum_pattern (number : Binary64) :
    double.datum number.pattern = number.datum := by
  rw [← datum_ofPattern, ofPattern_pattern]

end Binary64

/-- The pattern that bytes of a stream spell from an offset on. -/
def Bytes.patternAt (bytes : Bytes) (order : ByteOrder) (offset : Int) (width : Nat) : Nat :=
  order.positional (bytes.slice offset (offset + width)).toList

namespace Primitive

variable {order otherOrder : ByteOrder} {bytes other : Bytes} {offset otherOffset : Int}
  {number otherNumber : Binary64}

theorem patternAt_lt {width : Nat} (nonnegative : 0 ≤ offset)
    (inside : offset + width ≤ bytes.size) :
    bytes.patternAt order offset width < 2 ^ (8 * width) := by
  have bound := order.value_lt (bytes.slice offset (offset + width)).toList
  have length : (bytes.slice offset (offset + width)).toList.length = width := by
    rw [Bytes.slice_of_le nonnegative (by omega) inside, Array.length_toList, Array.size_extract]
    omega
  rw [length] at bound
  rwa [Bytes.patternAt, ByteOrder.positional_eq_value, Nat.pow_mul]

theorem read_double (nonnegative : 0 ≤ offset) (inside : offset + 8 ≤ bytes.size) :
    f64.read order bytes offset = .ok (.f64 (.ofPattern (bytes.patternAt order offset 8))) := by
  have read : f64.read order bytes offset = _ := read_eq nonnegative inside
  rw [Bytes.patternAt, ByteOrder.positional_eq_value]
  exact read

theorem read_single (nonnegative : 0 ≤ offset) (inside : offset + 4 ≤ bytes.size) :
    f32.read order bytes offset =
      .ok (.f32 (.ofSinglePattern (bytes.patternAt order offset 4))) := by
  have read : f32.read order bytes offset = _ := read_eq nonnegative inside
  rw [Bytes.patternAt, ByteOrder.positional_eq_value]
  exact read

/-- What is read of four bytes tells their pattern, if it is a number. -/
theorem patternAt_of_read_single (read : f32.read order bytes offset = .ok (.f32 number))
    (otherRead : f32.read otherOrder other otherOffset = .ok (.f32 otherNumber))
    (valued : single.datum (bytes.patternAt order offset 4) ≠ .nan)
    (same : number.pattern = otherNumber.pattern) :
    bytes.patternAt order offset 4 = other.patternAt otherOrder otherOffset 4 := by
  obtain ⟨nonnegative, inside⟩ := read_inside read
  obtain ⟨otherNonnegative, otherInside⟩ := read_inside otherRead
  have first : number = _ :=
    Value.f32.inj (Except.ok.inj (read.symm.trans (read_single nonnegative inside)))
  have second : otherNumber = _ :=
    Value.f32.inj (Except.ok.inj (otherRead.symm.trans (read_single otherNonnegative otherInside)))
  rw [← Binary64.datum_ofSinglePattern, Ne, Binary64.datum_eq_nan] at valued
  refine Binary64.ofSinglePattern_injective (patternAt_lt nonnegative inside)
    (patternAt_lt otherNonnegative otherInside) valued ?_
  rw [← first, ← second]
  exact Binary64.pattern_injective same

/-- Floating-point numbers are read exactly, in either byte order.  Eight bytes are read as the
number that has their pattern, and four bytes as a number that stands for the same as their pattern
of 32 bits, so that no two such patterns are confused unless they are no numbers.  A field is read
in the same way at its place. -/
theorem read_float_exact (order : ByteOrder) (bytes : Bytes) (offset : Int)
    (nonnegative : 0 ≤ offset) :
    let pattern := bytes.patternAt order offset
    (offset + 8 ≤ bytes.size → ∃ number, f64.read order bytes offset = .ok (.f64 number) ∧
      double.datum number.pattern = double.datum (pattern 8) ∧
      (double.datum (pattern 8) ≠ .nan → number.pattern = pattern 8)) ∧
    (offset + 4 ≤ bytes.size → ∃ number, f32.read order bytes offset = .ok (.f32 number) ∧
      double.datum number.pattern = single.datum (pattern 4) ∧
      (single.datum (pattern 4) ≠ .nan →
        ∀ otherOrder other otherOffset otherNumber,
          f32.read otherOrder other otherOffset = .ok (.f32 otherNumber) →
          otherNumber.pattern = number.pattern →
            other.patternAt otherOrder otherOffset 4 = pattern 4)) ∧
    ∀ (type : Primitive) (value : Value) (field : Field Int) (context : DecodeContext)
        (readings : Table Reading) (cursor : Int), field.content = .primitive type →
      context.byteOrder = order → field.position cursor bytes.size = .ok offset →
      type.read order bytes offset = .ok value →
        field.decode context readings bytes cursor =
          .ok { value, offset, size := type.width } := by
  intro pattern
  refine ⟨fun inside => ⟨_, read_double nonnegative inside, ?_, fun valued => ?_⟩,
    fun inside => ⟨_, read_single nonnegative inside, ?_, ?_⟩, ?_⟩
  · rw [Binary64.datum_pattern, Binary64.datum_ofPattern]
  · rw [← Binary64.datum_ofPattern, Ne, Binary64.datum_eq_nan] at valued
    rw [Binary64.pattern_ofPattern valued]
    exact Nat.mod_eq_of_lt (patternAt_lt nonnegative inside)
  · rw [Binary64.datum_pattern, Binary64.datum_ofSinglePattern]
  · intro valued otherOrder other otherOffset otherNumber otherRead same
    have read : f32.read order bytes offset = _ := read_single nonnegative inside
    exact (patternAt_of_read_single read otherRead valued same.symm).symm
  · intro type value field context readings cursor content ordered placed read
    subst ordered
    exact Field.decode_of_read content placed read

/-- The least subnormal number of four bytes and a negative zero, the highest byte first in both. -/
def sampleFloats : Bytes := #[0x00, 0x00, 0x00, 0x01, 0x80, 0x00, 0x00, 0x00]

def sampleTurned : Bytes := #[0x01, 0x00, 0x00, 0x00]

def sampleFloat : Field Int where
  name := "drift"
  content := .primitive .f32
  align := some 4
  offset := some 1

def sampleContext : DecodeContext where
  structureName := "block"
  byteOrder := .big
  maxSize := 0
  store := .empty

/-- The numbers are kept as they are, the sign of zero too, and the eight bytes are one number more.
Only the same pattern, here with its lowest byte first, is read as the same number. -/
theorem read_float_exact_sample :
    (∃ number, f32.read .big sampleFloats 0 = .ok (.f32 number) ∧
      double.datum number.pattern = .finite false (2 ^ (-149 : Int)) ∧
      f32.read .little sampleTurned 0 = .ok (.f32 number) ∧
      sampleTurned.patternAt .little 0 4 = sampleFloats.patternAt .big 0 4) ∧
    (∃ number, f64.read .big sampleFloats 0 = .ok (.f64 number) ∧
      number.pattern = 0x0000000180000000) ∧
    ∃ number, double.datum number.pattern = .finite true 0 ∧
      sampleFloat.decode sampleContext .empty sampleFloats 0 =
        .ok { value := .f32 number, offset := 4, size := 4 } := by
  obtain ⟨eight, four, _⟩ := read_float_exact .big sampleFloats 0 (by decide)
  obtain ⟨wide, wideRead, _, kept⟩ := eight (by decide)
  obtain ⟨least, leastRead, leastDatum, apart⟩ := four (by decide)
  obtain ⟨_, fourBehind, placed⟩ := read_float_exact .big sampleFloats 4 (by decide)
  obtain ⟨zero, zeroRead, zeroDatum, _⟩ := fourBehind (by decide)
  have subnormal : single.datum (sampleFloats.patternAt .big 0 4) =
      .finite false (2 ^ (-149 : Int)) := by decide +kernel
  have negative : single.datum (sampleFloats.patternAt .big 4 4) = .finite true 0 := by
    decide +kernel
  have valued : double.datum (sampleFloats.patternAt .big 0 8) ≠ .nan := by decide +kernel
  have turned : f32.read .little sampleTurned 0 = .ok (.f32 least) :=
    Eq.trans (by decide) leastRead
  have same := apart (by rw [subnormal]; nofun) .little sampleTurned 0 least turned rfl
  have decoded := placed .f32 (.f32 zero) sampleFloat sampleContext .empty 0 rfl rfl (by decide)
    zeroRead
  exact ⟨⟨least, leastRead, leastDatum.trans subnormal, turned, same⟩,
    ⟨wide, wideRead, (kept valued).trans (by decide)⟩, zero, zeroDatum.trans negative, decoded⟩

end Primitive

end Carve
