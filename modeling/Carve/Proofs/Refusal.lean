import Carve.Proofs.Reference
import Carve.Proofs.Sources

namespace Carve

/-- The bytes that a content takes up: the width of a primitive type, or what a size comes to. -/
inductive Content.Occupies (enclosing : String) (before : List (Field Int)) (record : Record)
    (latest : String → Option Record) (maxSize : Int) : Content Int → Int → Prop
  | primitive (type : Primitive) :
      Occupies enclosing before record latest maxSize (.primitive type) type.width
  | sized {content : Content Int} {size : Size Int} {count : Int}
      (declared : content.size? = some size)
      (gives : size.Gives enclosing before record latest maxSize count) :
      Occupies enclosing before record latest maxSize content count

/-- What is said against a field is so.  The fields `before` have been read into `front`, and other
structures stand with the records `latest`. -/
inductive DecodeError.Truthful (field : Field Int) (before : List (Field Int)) (front : Record)
    (latest : String → Option Record) (maxSize : Int) (stream : Bytes) : DecodeError → Prop
  /-- The field starts inside the stream and takes more bytes than are left. -/
  | unexpectedEnd {position needed : Int}
      (placed : field.position front.stop stream.size = .ok position)
      (inside : 0 ≤ position ∧ position ≤ stream.size)
      (occupies : field.content.Occupies front.structureName before front latest maxSize needed)
      (short : stream.size - position < needed) :
      Truthful field before front latest maxSize stream
        ⟨field.name, position, .unexpectedEnd needed (stream.size - position)⟩
  /-- The field is a text with all its bytes in the stream, and they are the UTF-8 of no text. -/
  | invalidUtf8 {position count : Int} {size : Size Int}
      (placed : field.position front.stop stream.size = .ok position)
      (text : field.content = .text size)
      (occupies : field.content.Occupies front.structureName before front latest maxSize count)
      (inside : 0 ≤ position ∧ 0 ≤ count ∧ position + count ≤ stream.size)
      (malformed :
        ¬ ByteArray.IsValidUTF8 ⟨stream.extract position.toNat (position + count).toNat⟩) :
      Truthful field before front latest maxSize stream ⟨field.name, position, .invalidUtf8⟩
  /-- The size is that of a reference, which leads to a number that is negative or too large. -/
  | sizeOverflow {position value : Int} {reference : Reference}
      (placed : field.position front.stop stream.size = .ok position)
      (supplied : field.content.size? = some (.reference reference))
      (leads : reference.LeadsTo front.structureName before front latest value)
      (outside : value < 0 ∨ min maxSize maxSizeLimit < value) :
      Truthful field before front latest maxSize stream
        ⟨field.name, position, .sizeOverflow value (min maxSize maxSizeLimit)⟩
  | unresolved {position : Int} {reference : Reference} {reason : Reference.Unresolved}
      (placed : field.position front.stop stream.size = .ok position)
      (supplied : field.content.size? = some (.reference reference)) :
      Truthful field before front latest maxSize stream
        ⟨field.name, position, .unresolved reference reason⟩
  /-- The field would be placed outside the stream, from a cursor inside it. -/
  | outOfBounds {moved : Int} (inside : 0 ≤ front.stop ∧ front.stop ≤ stream.size)
      (outside : moved < 0 ∨ stream.size < moved) :
      Truthful field before front latest maxSize stream
        ⟨field.name, front.stop, .outOfBounds moved⟩

section Congr

variable {field : Field Int} {before : List (Field Int)} {front record : Record}
  {latest other : String → Option Record} {maxSize : Int}

theorem Content.Occupies.congr {enclosing : String} {count : Int}
    (occupies : field.content.Occupies enclosing before record latest maxSize count)
    (same : ∀ owner, field.RefersTo enclosing owner → latest owner = other owner) :
    field.content.Occupies enclosing before record other maxSize count := by
  generalize held : field.content = content at occupies
  cases occupies with
  | primitive type => exact .primitive type
  | sized declared gives =>
      refine .sized declared (gives.congr fun reference owner supplied owned elsewhere => ?_)
      exact same owner ⟨reference, by rw [held, declared, supplied], owned, elsewhere⟩

/-- Only the records of structures that the field refers to count. -/
theorem DecodeError.Truthful.congr {stream : Bytes} {error : DecodeError}
    (truthful : error.Truthful field before front latest maxSize stream)
    (same : ∀ owner, field.RefersTo front.structureName owner → latest owner = other owner) :
    error.Truthful field before front other maxSize stream := by
  cases truthful with
  | unexpectedEnd placed inside occupies short =>
      exact .unexpectedEnd placed inside (occupies.congr same) short
  | invalidUtf8 placed text occupies inside malformed =>
      exact .invalidUtf8 placed text (occupies.congr same) inside malformed
  | sizeOverflow placed supplied leads outside =>
      refine .sizeOverflow placed supplied (leads.congr fun owner owned elsewhere => ?_) outside
      exact same owner ⟨_, supplied, owned, elsewhere⟩
  | unresolved placed supplied => exact .unresolved placed supplied
  | outOfBounds inside outside => exact .outOfBounds inside outside

theorem DecodeError.Truthful.field_eq {stream : Bytes} {error : DecodeError}
    (truthful : error.Truthful field before front latest maxSize stream) :
    error.field = field.name := by
  cases truthful <;> rfl

end Congr

theorem Content.value?_eq_none {content : Content Int} {order : ByteOrder} {bytes : Bytes}
    (absent : content.value? order bytes = none) :
    (∃ size, content = .text size) ∧ ¬ ByteArray.IsValidUTF8 ⟨bytes⟩ := by
  cases content with
  | primitive type | buffer size => contradiction
  | text size =>
      simp only [value?, Option.map_eq_none_iff, String.fromUTF8?] at absent
      split at absent
      · contradiction
      · next malformed => exact ⟨⟨size, rfl⟩, malformed⟩

namespace Field

variable {field : Field Int} {before : List (Field Int)} {earlier : List Layout} {front : Record}
  {context : DecodeContext} {readings : Table Reading} {stream : Bytes} {position count : Int}
  {error : DecodeError}

section WellFormed

variable (valid : field.WellFormed context.structureName earlier before)
  (named : front.structureName = context.structureName)
include valid named

theorem WellFormed.extent_occupies
    (sized : field.extent context front.fields position = .ok count) :
    field.content.Occupies front.structureName before front context.store.latestOf context.maxSize
      count := by
  cases declared : field.content.size? with
  | none =>
      unfold extent at sized
      cases content : field.content with
      | primitive type =>
          simp only [content, Except.ok.injEq] at sized
          exact sized ▸ .primitive type
      | buffer size | text size => simp [content, Content.size?] at declared
  | some size =>
      refine .sized declared ?_
      rw [extent_eq_size declared] at sized
      cases size with
      | literal number =>
          cases sized
          exact .literal _
      | reference reference =>
          obtain ⟨resolved, lower, upper⟩ := size_reference_eq_ok.mp sized
          rw [named]
          exact ((valid.grounded reference declared).leadsTo (fun _ _ => rfl) resolved).gives
            ⟨lower, Int.le_trans upper (Int.min_le_left _ _)⟩

/-- A field that is refused behind the fields of a record is refused for what is so. -/
theorem WellFormed.refusal_truthful (small : stream.size < 2 ^ 53)
    (inside : 0 ≤ front.stop ∧ front.stop ≤ stream.size)
    (failed : field.reading context front.fields stream front.stop = .error error) :
    error.Truthful field before front context.store.latestOf context.maxSize stream := by
  rcases reading_eq_error failed with
    unplaced | ⟨position, placed, unsized | ⟨count, sized, unread⟩⟩
  · obtain ⟨moved, outside, rfl⟩ := position_eq_error unplaced
    exact .outOfBounds inside outside
  · obtain ⟨size, declared, unsized⟩ := extent_eq_error unsized
    obtain ⟨reference, rfl, ⟨reason, _, rfl⟩ | ⟨value, resolved, outside, rfl⟩⟩ :=
      size_eq_error unsized
    · exact .unresolved placed declared
    · have leads : reference.LeadsTo context.structureName before front context.store.latestOf
          value :=
        (valid.grounded reference declared).leadsTo (fun _ _ => rfl) resolved
      rw [← named] at leads
      exact .sizeOverflow placed declared leads outside
  · have within : 0 ≤ position ∧ position ≤ stream.size :=
      ⟨valid.position_nonneg inside.1 placed, position_le inside.2 placed⟩
    have positive := valid.extent_nonneg sized
    have occupies := valid.extent_occupies named sized
    rcases readAt_eq_error small within positive unread with ⟨short, rfl⟩ | ⟨enough, absent, rfl⟩
    · exact .unexpectedEnd placed within occupies short
    · obtain ⟨⟨size, text⟩, malformed⟩ := Content.value?_eq_none absent
      exact .invalidUtf8 placed text occupies ⟨within.1, positive, enough⟩ malformed

end WellFormed

end Field

namespace Layout

/-- The layout with other fields. -/
def withFields (layout : Layout) (fields : List (Field Int)) : Layout := { layout with fields }

variable {layout : Layout} {earlier : List Layout} {stream : Bytes} {maxSize : Int} {store : Store}
  {place : Nat} {error : DecodeError}

/-- The fields in front of the one that a candidate is refused for give a record of the structure
cut off there. -/
theorem WellFormed.refusal_truthful (wellFormed : layout.WellFormed earlier)
    (small : stream.size < 2 ^ 53) (room : place + layout.signature.size ≤ stream.size)
    (refused : layout.candidate stream maxSize store place = .error (.refused error)) :
    ∃ before field after front, layout.fields = before ++ field :: after ∧
      (layout.withFields before).candidate stream maxSize store place = .ok front ∧
      error.Truthful field before front store.latestOf maxSize stream := by
  have admissible := wellFormed.admissible
  rw [candidate_eq_readFields small admissible] at refused
  split at refused
  · next failed =>
      cases refused
      obtain ⟨before, field, after, reached, cursor, split, read, stopped⟩ :=
        readFields_eq_error failed
      have admissibleFront : ∀ other ∈ (layout.withFields before).fields, other.Admissible :=
        fun other member => admissible other (split ▸ List.mem_append_left _ member)
      have start : Number.add place layout.signature.size = (place + layout.signature.size : Nat) :=
        start_eq small room
      obtain ⟨lower, upper⟩ := readFields_inside small admissibleFront (by omega) read
      let front : Record :=
        { structureName := layout.name, signatureOffset := place,
          start := Number.add place layout.signature.size, stop := cursor, fields := reached }
      have decoded : (layout.withFields before).candidate stream maxSize store place = .ok front :=
        (candidate_eq_ok small admissibleFront).mpr ⟨read, rfl, rfl, rfl⟩
      have valid : field.WellFormed (layout.context maxSize store).structureName earlier before :=
        wellFormed.fields before field after split
      have named : front.structureName = (layout.context maxSize store).structureName := rfl
      have inside : 0 ≤ front.stop ∧ front.stop ≤ stream.size :=
        ⟨lower, Int.le_trans upper (by omega)⟩
      exact ⟨before, field, after, front, split, decoded,
        valid.refusal_truthful named small inside stopped⟩
  · contradiction

end Layout

end Carve
