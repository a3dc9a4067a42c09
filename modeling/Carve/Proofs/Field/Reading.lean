import Carve.Proofs.Number
import Carve.Proofs.Plan.WellFormed

namespace Carve

/-- A reading whose bytes are bytes of the stream. -/
def Reading.Inside (reading : Reading) (length : Nat) : Prop :=
  0 ≤ reading.offset ∧ 0 ≤ reading.size ∧ reading.offset + reading.size ≤ length

theorem Reading.Inside.stop_eq {reading : Reading} {length : Nat} (small : length < 2 ^ 53)
    (inside : reading.Inside length) : reading.stop = reading.offset + reading.size := by
  obtain ⟨_, _, _⟩ := inside
  exact Number.add_of_natAbs_le (by omega)

/-- The value that a content has in its bytes, if it has one. -/
def Content.value? (content : Content Int) (order : ByteOrder) (bytes : Bytes) : Option Value :=
  match content with
  | .primitive type => some (type.value (order.value bytes.toList))
  | .buffer _ => some (.bytes bytes)
  | .text _ => (String.fromUTF8? ⟨bytes⟩).map .utf8

namespace Field

/-- How many bytes a field takes at a position. -/
def extent (field : Field Int) (context : DecodeContext) (readings : Table Reading)
    (position : Int) : Except DecodeError Int :=
  match field.content with
  | .primitive type => .ok type.width
  | .buffer size | .text size => field.size context readings position size

/-- Reads a field with a place and an extent. -/
def readAt (field : Field Int) (context : DecodeContext) (stream : Bytes) (position count : Int) :
    Except DecodeError Reading :=
  match field.require position count stream.size with
  | .error error => .error error
  | .ok () =>
      let bytes := stream.extract position.toNat (position + count).toNat
      match field.content.value? context.byteOrder bytes with
      | none => .error ⟨field.name, position, .invalidUtf8⟩
      | some value => .ok { value, offset := position, size := count }

/-- Decoding where no fault can arise. -/
def reading (field : Field Int) (context : DecodeContext) (readings : Table Reading)
    (stream : Bytes) (cursor : Int) : Except DecodeError Reading := do
  let position ← field.position cursor stream.size
  let count ← field.extent context readings position
  field.readAt context stream position count

variable {field : Field Int} {context : DecodeContext} {readings : Table Reading} {stream : Bytes}
  {length : Nat} {cursor shifted position count : Int}

theorem shift_nonneg (nonnegative : 0 ≤ cursor)
    (moved : field.shift cursor length = .ok shifted) : 0 ≤ shifted := by
  unfold shift at moved
  split at moved
  · cases moved
    exact nonnegative
  · dsimp only at moved
    split at moved
    · contradiction
    · cases moved
      omega

theorem Admissible.alignUp_nonneg (admissible : field.Admissible) (nonnegative : 0 ≤ shifted)
    (aligned : field.alignUp cursor length shifted = .ok position) : 0 ≤ position := by
  unfold alignUp at aligned
  split at aligned
  · cases aligned
    exact nonnegative
  · next align present =>
      obtain ⟨positive, _⟩ := admissible.boundary align present
      have below := Int.tmod_lt_of_pos shifted positive
      dsimp only at aligned
      split at aligned
      · cases aligned
        exact nonnegative
      · split at aligned
        · contradiction
        · cases aligned
          have step : 0 ≤ Number.sub align (shifted.tmod align) :=
            Number.round_nonneg (by omega)
          exact Number.round_nonneg (by omega)

theorem Admissible.position_nonneg (admissible : field.Admissible) (nonnegative : 0 ≤ cursor)
    (placed : field.position cursor length = .ok position) : 0 ≤ position := by
  unfold Field.position at placed
  split at placed
  · contradiction
  · next shifted moved =>
      exact admissible.alignUp_nonneg (shift_nonneg nonnegative moved) placed

theorem Admissible.extent_nonneg (admissible : field.Admissible)
    (sized : field.extent context readings position = .ok count) : 0 ≤ count := by
  have sizeCase (size : Size Int) (declared : field.content.size? = some size)
      (found : field.size context readings position size = .ok count) : 0 ≤ count := by
    unfold Field.size at found
    split at found
    · cases found
      exact (admissible.count _ declared).1
    · split at found
      · contradiction
      · split at found
        · contradiction
        · cases found
          omega
  unfold extent at sized
  split at sized
  · cases sized
    omega
  · next size content => exact sizeCase size (by rw [content]; rfl) sized
  · next size content => exact sizeCase size (by rw [content]; rfl) sized

theorem require_eq (small : length < 2 ^ 53) (nonnegative : 0 ≤ position) (positive : 0 ≤ count) :
    field.require position count length =
      if position + count ≤ length then .ok ()
      else .error ⟨field.name, position, .unexpectedEnd count (Number.sub length position)⟩ := by
  rw [require]
  by_cases inside : position ≤ length
  · have exact : Number.sub length position = length - position :=
      Number.sub_of_natAbs_le (by omega)
    by_cases enough : position + count ≤ length
    · rw [if_neg (by omega), if_pos enough]
    · rw [if_pos (by omega), if_neg enough]
  · -- Behind the stream the difference is negative, however it is rounded.
    have negative : Number.sub length position ≤ Number.round (-1) :=
      Number.round_mono (by omega)
    have least : Number.round (-1) = -1 := rfl
    rw [if_pos (by omega), if_neg (by omega)]

theorem readAt_eq_ok (small : stream.size < 2 ^ 53) (nonnegative : 0 ≤ position)
    (positive : 0 ≤ count) {result : Reading} :
    field.readAt context stream position count = .ok result ↔
      position + count ≤ stream.size ∧ result.offset = position ∧ result.size = count ∧
      field.content.value? context.byteOrder
        (stream.extract position.toNat (position + count).toNat) = some result.value := by
  obtain ⟨value, offset, size⟩ := result
  rw [readAt, require_eq small nonnegative positive]
  by_cases enough : position + count ≤ stream.size
  · simp only [if_pos enough]
    cases field.content.value? context.byteOrder
      (stream.extract position.toNat (position + count).toNat) with
    | none => simp
    | some other =>
        simp only [Except.ok.injEq, Reading.mk.injEq, Option.some.injEq]
        grind
  · simp [enough]

theorem decodePrimitive_eq {type : Primitive} (content : field.content = .primitive type)
    (small : stream.size < 2 ^ 53) (nonnegative : 0 ≤ position) :
    field.decodePrimitive type context stream position =
      (field.readAt context stream position type.width).mapError .refused := by
  have stop : (position + type.width).toNat = position.toNat + type.width := by omega
  rw [decodePrimitive, readAt, require_eq small nonnegative (Int.natCast_nonneg _)]
  by_cases enough : position + type.width ≤ stream.size
  · simp only [if_pos enough, Primitive.read, if_pos (And.intro nonnegative enough), content,
      Content.value?, stop]
    rfl
  · simp only [if_neg enough]
    rfl

theorem decodeSized_eq {isText : Bool} {size : Size Int}
    (content : field.content = if isText then .text size else .buffer size)
    (nonnegative : ∀ count, field.size context readings position size = .ok count → 0 ≤ count)
    (small : stream.size < 2 ^ 53) (behind : 0 ≤ position) :
    field.decodeSized isText size context readings stream position =
      field.size context readings position size >>= field.readAt context stream position := by
  rw [decodeSized, take]
  cases sized : field.size context readings position size with
  | error error => rfl
  | ok count =>
      have positive := nonnegative count sized
      simp only [bind, Except.bind, readAt, require_eq small behind positive]
      by_cases enough : position + count ≤ stream.size
      · have stop : Number.add position count = position + count :=
          Number.add_of_natAbs_le (by omega)
        have bytes := Bytes.slice_of_le behind (by omega : position ≤ position + count) enough
        simp only [if_pos enough, stop, bytes, interpret, content]
        cases isText with
        | false => rfl
        | true =>
            simp only [if_true, Content.value?]
            cases String.fromUTF8? ⟨stream.extract position.toNat (position + count).toNat⟩ <;> rfl
      · simp only [if_neg enough]

theorem Admissible.decode_eq (admissible : field.Admissible) (small : stream.size < 2 ^ 53)
    (nonnegative : 0 ≤ cursor) :
    field.decode context readings stream cursor =
      (field.reading context readings stream cursor).mapError .refused := by
  rw [decode, reading]
  cases placed : field.position cursor stream.size with
  | error error => rfl
  | ok position =>
      have behind := admissible.position_nonneg nonnegative placed
      -- A negative size would pass the requirement, so it is ruled out before bytes are taken.
      have positive (count : Int) :
          field.extent context readings position = .ok count → 0 ≤ count :=
        admissible.extent_nonneg
      cases content : field.content with
      | primitive type =>
          simpa only [bind, Except.bind, extent, content] using
            decodePrimitive_eq content small behind
      | buffer size =>
          simp only [extent, content] at positive
          have sized : field.decodeSized false size context readings stream position = _ :=
            decodeSized_eq (by simpa using content) positive small behind
          simp only [sized, bind, Except.bind, extent, content]
      | text size =>
          simp only [extent, content] at positive
          have sized : field.decodeSized true size context readings stream position = _ :=
            decodeSized_eq (by simpa using content) positive small behind
          simp only [sized, bind, Except.bind, extent, content]

/-- A field is read exactly if it has a place, an extent, the bytes for it, and a value in them. -/
theorem Admissible.reading_eq_ok (admissible : field.Admissible) (small : stream.size < 2 ^ 53)
    (nonnegative : 0 ≤ cursor) {result : Reading} :
    field.reading context readings stream cursor = .ok result ↔
      field.position cursor stream.size = .ok result.offset ∧
      field.extent context readings result.offset = .ok result.size ∧
      result.offset + result.size ≤ stream.size ∧
      field.content.value? context.byteOrder
        (stream.extract result.offset.toNat (result.offset + result.size).toNat) =
          some result.value := by
  simp only [reading, Except.bind_eq_ok]
  constructor
  · rintro ⟨position, placed, count, sized, read⟩
    obtain ⟨enough, rfl, rfl, valued⟩ :=
      (readAt_eq_ok small (admissible.position_nonneg nonnegative placed)
        (admissible.extent_nonneg sized)).mp read
    exact ⟨placed, sized, enough, valued⟩
  · rintro ⟨placed, sized, enough, valued⟩
    have read := (readAt_eq_ok small (admissible.position_nonneg nonnegative placed)
      (admissible.extent_nonneg sized)).mpr ⟨enough, rfl, rfl, valued⟩
    exact ⟨result.offset, placed, result.size, sized, read⟩

theorem Admissible.reading_inside (admissible : field.Admissible) (small : stream.size < 2 ^ 53)
    (nonnegative : 0 ≤ cursor) {result : Reading}
    (read : field.reading context readings stream cursor = .ok result) :
    result.Inside stream.size := by
  obtain ⟨placed, sized, enough, _⟩ := (admissible.reading_eq_ok small nonnegative).mp read
  exact ⟨admissible.position_nonneg nonnegative placed, admissible.extent_nonneg sized, enough⟩

theorem Admissible.stop_inside (admissible : field.Admissible) (small : stream.size < 2 ^ 53)
    (nonnegative : 0 ≤ cursor) {result : Reading}
    (read : field.reading context readings stream cursor = .ok result) :
    0 ≤ result.stop ∧ result.stop ≤ stream.size := by
  have within := admissible.reading_inside small nonnegative read
  rw [within.stop_eq small]
  obtain ⟨_, _, _⟩ := within
  omega

end Field

end Carve
