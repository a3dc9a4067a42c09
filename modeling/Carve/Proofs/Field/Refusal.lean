import Carve.Proofs.Field.Reading

namespace Carve.Field

variable {field : Field Int} {context : DecodeContext} {readings : Table Reading} {stream : Bytes}
  {length : Nat} {cursor shifted position count : Int} {error : DecodeError}

theorem shift_eq_error (failed : field.shift cursor length = .error error) :
    ∃ moved : Int, (moved < 0 ∨ length < moved) ∧
      error = ⟨field.name, cursor, .outOfBounds moved⟩ := by
  unfold shift at failed
  split at failed
  · contradiction
  · dsimp only at failed
    split at failed
    · next outside =>
        cases failed
        exact ⟨_, outside, rfl⟩
    · contradiction

theorem alignUp_eq_error (failed : field.alignUp cursor length shifted = .error error) :
    ∃ moved : Int, length < moved ∧ error = ⟨field.name, cursor, .outOfBounds moved⟩ := by
  unfold alignUp at failed
  split at failed
  · contradiction
  · dsimp only at failed
    split at failed
    · contradiction
    · split at failed
      · next behind =>
          cases failed
          exact ⟨_, behind, rfl⟩
      · contradiction

/-- A field that cannot be placed would lie outside the stream. -/
theorem position_eq_error (failed : field.position cursor length = .error error) :
    ∃ moved : Int, (moved < 0 ∨ length < moved) ∧
      error = ⟨field.name, cursor, .outOfBounds moved⟩ := by
  unfold Field.position at failed
  split at failed
  · next other unshifted =>
      cases failed
      exact shift_eq_error unshifted
  · obtain ⟨moved, behind, same⟩ := alignUp_eq_error failed
    exact ⟨moved, .inr behind, same⟩

theorem shift_le (inside : cursor ≤ length) (moved : field.shift cursor length = .ok shifted) :
    shifted ≤ length := by
  unfold shift at moved
  split at moved
  · cases moved
    exact inside
  · dsimp only at moved
    split at moved
    · contradiction
    · cases moved
      omega

theorem alignUp_le (inside : shifted ≤ length)
    (aligned : field.alignUp cursor length shifted = .ok position) : position ≤ length := by
  unfold alignUp at aligned
  split at aligned
  · cases aligned
    exact inside
  · dsimp only at aligned
    split at aligned
    · cases aligned
      exact inside
    · split at aligned
      · contradiction
      · cases aligned
        omega

/-- From a cursor in the stream a field is placed in the stream, at its end at most. -/
theorem position_le (inside : cursor ≤ length)
    (placed : field.position cursor length = .ok position) : position ≤ length := by
  unfold Field.position at placed
  split at placed
  · contradiction
  · next shifted moved => exact alignUp_le (shift_le inside moved) placed

/-- A size fails for its reference alone: it has no value, or one that is negative or above the
limit. -/
theorem size_eq_error {size : Size Int}
    (failed : field.size context readings position size = .error error) :
    ∃ reference, size = .reference reference ∧
      ((∃ reason, reference.resolve context.store readings context.structureName = .error reason ∧
          error = ⟨field.name, position, .unresolved reference reason⟩) ∨
        ∃ value, reference.resolve context.store readings context.structureName = .ok value ∧
          (value < 0 ∨ context.limit < value) ∧
          error = ⟨field.name, position, .sizeOverflow value context.limit⟩) := by
  unfold Field.size at failed
  split at failed
  · contradiction
  · next reference =>
      refine ⟨reference, rfl, ?_⟩
      split at failed
      · next reason unresolved =>
          cases failed
          exact .inl ⟨reason, unresolved, rfl⟩
      · next value resolved =>
          split at failed
          · next outside =>
              cases failed
              exact .inr ⟨value, resolved, outside, rfl⟩
          · contradiction

theorem extent_eq_error (failed : field.extent context readings position = .error error) :
    ∃ size, field.content.size? = some size ∧
      field.size context readings position size = .error error := by
  unfold extent at failed
  cases content : field.content with
  | primitive type => simp [content] at failed
  | buffer size | text size => exact ⟨size, rfl, by simpa [content] using failed⟩

/-- With a place in the stream and a size, a field fails for bytes that are missing, or for bytes
that are none of its values. -/
theorem readAt_eq_error (small : stream.size < 2 ^ 53)
    (inside : 0 ≤ position ∧ position ≤ stream.size) (positive : 0 ≤ count)
    (failed : field.readAt context stream position count = .error error) :
    (stream.size - position < count ∧
        error = ⟨field.name, position, .unexpectedEnd count (stream.size - position)⟩) ∨
      (position + count ≤ stream.size ∧
        field.content.value? context.byteOrder
          (stream.extract position.toNat (position + count).toNat) = none ∧
        error = ⟨field.name, position, .invalidUtf8⟩) := by
  have available : Number.sub stream.size position = stream.size - position :=
    Number.sub_of_natAbs_le (by omega)
  rw [readAt, require_eq small inside.1 positive, available] at failed
  by_cases enough : position + count ≤ stream.size
  · rw [if_pos enough] at failed
    dsimp only at failed
    split at failed
    · next malformed =>
        cases failed
        exact .inr ⟨enough, malformed, rfl⟩
    · contradiction
  · rw [if_neg enough] at failed
    cases failed
    exact .inl ⟨by omega, rfl⟩

/-- A field is refused in one of three steps: it has no place, no extent there, or no value in its
bytes. -/
theorem reading_eq_error (failed : field.reading context readings stream cursor = .error error) :
    field.position cursor stream.size = .error error ∨
      ∃ position, field.position cursor stream.size = .ok position ∧
        (field.extent context readings position = .error error ∨
          ∃ count, field.extent context readings position = .ok count ∧
            field.readAt context stream position count = .error error) := by
  simpa only [reading, Except.bind_eq_error] using failed

end Carve.Field
