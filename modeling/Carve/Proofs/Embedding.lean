import Carve.Proofs.Reference
import Carve.Proofs.Spans

/-!
A stream inside a larger one.

With a multiple of every boundary in front of the stream, a field stands as far from the beginning
of the stream as without (`Field.Admissible.position_moved`), and its bytes are the same.  So a
record is read again with all its places moved (`Layout.readFields_moved`), and a refusal that is
not for want of bytes is met again (`Layout.readFields_refused`).
-/

namespace Carve

namespace Table

variable {α β : Type}

def map (f : α → β) (table : Table α) : Table β where
  entries := table.entries.map fun entry => (entry.1, f entry.2)
  distinct := by
    rw [List.map_map]
    exact table.distinct

theorem find?_map (f : α → β) (table : Table α) (name : String) :
    (table.map f).find? name = (table.find? name).map f := by
  obtain ⟨entries, distinct⟩ := table
  simp only [find?, map]
  clear distinct
  induction entries with
  | nil => rfl
  | cons entry rest ih =>
      obtain ⟨other, value⟩ := entry
      simp only [List.map_cons, List.lookup_cons, ih]
      cases name == other <;> rfl

theorem map_insert (f : α → β) (table : Table α) (name : String) (value : α) :
    (table.insert name value).map f = (table.map f).insert name (f value) := by
  apply Table.ext
  obtain ⟨entries, distinct⟩ := table
  simp only [insert, map]
  clear distinct
  induction entries with
  | nil => rfl
  | cons entry rest ih =>
      simp only [put, List.map_cons]
      split
      · rfl
      · rw [List.map_cons, ih]

end Table

theorem Bytes.room_embedded (front stream back : Bytes) :
    front.size + stream.size ≤ (front ++ stream ++ back).size := by
  simp only [Array.size_append]
  omega

theorem Bytes.extract_embedded (front stream back : Bytes) {start stop : Nat}
    (inside : stop ≤ stream.size) :
    (front ++ stream ++ back).extract (start + front.size) (stop + front.size) =
      stream.extract start stop := by
  have nothingBefore : front.extract (start + front.size) (stop + front.size) = #[] :=
    Array.extract_empty_of_size_le_start (by omega)
  have nothingBehind : back.extract (start + front.size - (front ++ stream).size)
      (stop + front.size - (front ++ stream).size) = #[] := by
    rw [Array.size_append]
    exact Array.extract_empty_of_stop_le_start (by omega)
  rw [Array.extract_append, Array.extract_append, nothingBefore, nothingBehind, Array.empty_append,
    Array.append_empty, Nat.add_sub_cancel, Nat.add_sub_cancel]

/-- The reading with the same value, so many bytes further on. -/
def Reading.moved (distance : Nat) (reading : Reading) : Reading :=
  { reading with offset := reading.offset + distance }

/-- The record with the same values, all its places so many bytes further on. -/
def Record.moved (distance : Nat) (record : Record) : Record :=
  { record with
    signatureOffset := record.signatureOffset + distance
    start := record.start + distance
    stop := record.stop + distance
    fields := record.fields.map (Reading.moved distance) }

def DecodeError.moved (distance : Nat) (error : DecodeError) : DecodeError :=
  { error with position := error.position + distance }

/-- More bytes behind the stream do not help against it. -/
def DecodeError.Cause.IsFinal : DecodeError.Cause → Prop
  | .invalidUtf8 | .sizeOverflow _ _ | .unresolved _ _ => True
  | .unexpectedEnd _ _ | .outOfBounds _ => False

theorem Reference.resolve_moved (reference : Reference) (store : Store) (readings : Table Reading)
    (enclosing : String) (distance : Nat) :
    reference.resolve store (readings.map (Reading.moved distance)) enclosing =
      reference.resolve store readings enclosing := by
  unfold resolve source
  cases owned : reference.owner with
  | none =>
      simp only [Table.find?_map]
      cases readings.find? reference.field <;> rfl
  | some owner =>
      by_cases isLocal : owner = enclosing
      · simp only [if_pos isLocal, Table.find?_map]
        cases readings.find? reference.field <;> rfl
      · simp only [if_neg isLocal]

section Place

variable {length total distance : Nat} (small : total < 2 ^ 53) (room : distance + length ≤ total)
include small room

/-- A sum of offsets that lies in the stream lies as much further on in the larger one. -/
theorem Number.add_moved {left right : Int} (lower : 0 ≤ add left right)
    (upper : add left right ≤ length) :
    add (left + distance) right = add left right + distance := by
  have exact : add left right = left + right := round_eq_of_lt (by rw [← add]; omega)
  rw [add_of_natAbs_le (by omega)]
  omega

theorem Reading.Inside.stop_moved {reading : Reading} (inside : reading.Inside length) :
    (reading.moved distance).stop = reading.stop + distance := by
  have stop : reading.stop = reading.offset + reading.size := inside.stop_eq (by omega)
  obtain ⟨_, _, _⟩ := inside
  exact Number.add_moved small room (show 0 ≤ reading.stop by omega)
    (show reading.stop ≤ length by omega)

namespace Field

variable {field : Field Int} {cursor shifted position : Int}

theorem shift_moved (moved : field.shift cursor length = .ok shifted) :
    field.shift (cursor + distance) total = .ok (shifted + distance) := by
  unfold shift at moved ⊢
  cases present : field.offset with
  | none =>
      simp only [present] at moved ⊢
      cases moved
      rfl
  | some offset =>
      simp only [present] at moved ⊢
      split at moved
      · contradiction
      · cases moved
        rw [Number.add_moved small room (by omega) (by omega), if_neg (by omega)]

variable (aligned : ∀ align ∈ field.align, align ∣ (distance : Int))
include aligned

theorem Admissible.alignUp_moved (admissible : field.Admissible) (nonnegative : 0 ≤ shifted)
    (placed : field.alignUp cursor length shifted = .ok position) :
    field.alignUp (cursor + distance) total (shifted + distance) = .ok (position + distance) := by
  unfold alignUp at placed ⊢
  cases present : field.align with
  | none =>
      simp only [present] at placed ⊢
      cases placed
      rfl
  | some align =>
      have same : (shifted + distance).tmod align = shifted.tmod align := by
        obtain ⟨factor, multiple⟩ := aligned align present
        rw [Int.tmod_eq_emod_of_nonneg (by omega), Int.tmod_eq_emod_of_nonneg nonnegative, multiple,
          Int.add_mul_emod_self_left]
      simp only [present, same] at placed ⊢
      split at placed
      · next onBoundary =>
          cases placed
          rw [if_pos onBoundary]
      · next between =>
          split at placed
          · contradiction
          · cases placed
            obtain ⟨positive, _⟩ := admissible.boundary align present
            have below := Int.tmod_lt_of_pos shifted positive
            have step : 0 ≤ Number.sub align (shifted.tmod align) :=
              Number.round_nonneg (by omega)
            have lower : 0 ≤ Number.add shifted (Number.sub align (shifted.tmod align)) :=
              Number.round_nonneg (by omega)
            rw [if_neg between, Number.add_moved small room lower (by omega), if_neg (by omega)]

theorem Admissible.position_moved (admissible : field.Admissible) (nonnegative : 0 ≤ cursor)
    (placed : field.position cursor length = .ok position) :
    field.position (cursor + distance) total = .ok (position + distance) := by
  unfold Field.position at placed ⊢
  split at placed
  · contradiction
  · next shifted moved =>
      rw [shift_moved small room moved]
      exact admissible.alignUp_moved small room aligned (shift_nonneg nonnegative moved) placed

end Field

end Place

namespace Field

variable {field : Field Int} {context : DecodeContext} {readings : Table Reading}
  {cursor : Int} {error : DecodeError}

/-- What a field takes is found without looking at the stream. -/
theorem extent_moved (position : Int) (distance : Nat) :
    field.extent context (readings.map (Reading.moved distance)) (position + distance) =
      (field.extent context readings position).mapError (DecodeError.moved distance) := by
  have sizeCase (size : Size Int) :
      field.size context (readings.map (Reading.moved distance)) (position + distance) size =
        (field.size context readings position size).mapError (DecodeError.moved distance) := by
    cases size with
    | literal count => rfl
    | reference reference =>
        simp only [Field.size, reference.resolve_moved]
        cases reference.resolve context.store readings context.structureName with
        | error reason => rfl
        | ok number => dsimp only; split <;> rfl
  unfold extent
  cases field.content with
  | primitive type => rfl
  | buffer size | text size => exact sizeCase size

variable {front stream back : Bytes} (small : (front ++ stream ++ back).size < 2 ^ 53)
include small

theorem readAt_moved {position count : Int} (nonnegative : 0 ≤ position) (positive : 0 ≤ count)
    (enough : position + count ≤ stream.size) :
    field.readAt context (front ++ stream ++ back) (position + front.size) count =
      ((field.readAt context stream position count).map (Reading.moved front.size)).mapError
        (DecodeError.moved front.size) := by
  have room := Bytes.room_embedded front stream back
  have start : (position + front.size).toNat = position.toNat + front.size := by omega
  have stop : (position + front.size + count).toNat = (position + count).toNat + front.size := by
    omega
  have bytes : (front ++ stream ++ back).extract (position.toNat + front.size)
      ((position + count).toNat + front.size) =
        stream.extract position.toNat (position + count).toNat :=
    Bytes.extract_embedded front stream back (by omega)
  rw [readAt, readAt, require_eq small (by omega) positive, if_pos (by omega),
    require_eq (by omega) nonnegative positive, if_pos enough]
  simp only [start, stop, bytes]
  cases field.content.value? context.byteOrder
    (stream.extract position.toNat (position + count).toNat) <;> rfl

variable (aligned : ∀ align ∈ field.align, align ∣ (front.size : Int))
  (admissible : field.Admissible) (nonnegative : 0 ≤ cursor)
include aligned admissible nonnegative

theorem reading_moved {result : Reading}
    (read : field.reading context readings stream cursor = .ok result) :
    field.reading context (readings.map (Reading.moved front.size)) (front ++ stream ++ back)
      (cursor + front.size) = .ok (result.moved front.size) := by
  have room := Bytes.room_embedded front stream back
  obtain ⟨position, placed, read⟩ := Except.bind_eq_ok.mp read
  obtain ⟨count, sized, read⟩ := Except.bind_eq_ok.mp read
  have behind := admissible.position_nonneg nonnegative placed
  have positive := admissible.extent_nonneg sized
  obtain ⟨enough, _⟩ := (readAt_eq_ok (by omega) behind positive).mp read
  have placedAgain := admissible.position_moved small room aligned nonnegative placed
  have sizedAgain : field.extent context (readings.map (Reading.moved front.size))
      (position + front.size) = .ok count := by
    rw [extent_moved, sized]
    rfl
  have readAgain : field.readAt context (front ++ stream ++ back) (position + front.size) count =
      .ok (result.moved front.size) := by
    rw [readAt_moved small behind positive enough, read]
    rfl
  simp only [reading, placedAgain, sizedAgain, readAgain, bind, Except.bind]

/-- A field is refused again unless it was refused for want of bytes. -/
theorem reading_refused (final : error.cause.IsFinal)
    (failed : field.reading context readings stream cursor = .error error) :
    field.reading context (readings.map (Reading.moved front.size)) (front ++ stream ++ back)
      (cursor + front.size) = .error (error.moved front.size) := by
  have room := Bytes.room_embedded front stream back
  unfold reading at failed
  cases placed : field.position cursor stream.size with
  | error other =>
      obtain ⟨moved, _, rfl⟩ := position_eq_error placed
      simp only [placed, bind, Except.bind, Except.error.injEq] at failed
      subst failed
      contradiction
  | ok position =>
      have behind := admissible.position_nonneg nonnegative placed
      have placedAgain := admissible.position_moved small room aligned nonnegative placed
      simp only [placed, bind, Except.bind] at failed
      cases sized : field.extent context readings position with
      | error other =>
          simp only [sized, Except.error.injEq] at failed
          simp only [reading, placedAgain, bind, Except.bind, extent_moved, sized, failed]
          rfl
      | ok count =>
          have positive := admissible.extent_nonneg sized
          simp only [sized] at failed
          by_cases enough : position + count ≤ stream.size
          · have refusedAgain : field.readAt context (front ++ stream ++ back)
                (position + front.size) count = .error (error.moved front.size) := by
              rw [readAt_moved small behind positive enough, failed]
              rfl
            simp only [reading, placedAgain, bind, Except.bind, extent_moved, sized]
            exact refusedAgain
          · rw [readAt, require_eq (by omega) behind positive, if_neg enough] at failed
            cases failed
            contradiction

end Field

namespace Layout

variable {context : DecodeContext} {fields : List (Field Int)} {readings last : Table Reading}
  {cursor stop : Int} {front stream back : Bytes}

section Fields

variable (small : (front ++ stream ++ back).size < 2 ^ 53)
include small

/-- Behind a field that was read the others are read with what was read of it moved. -/
theorem readFields_cons_moved {field : Field Int} {rest : List (Field Int)} {reading : Reading}
    (aligned : ∀ align ∈ field.align, align ∣ (front.size : Int)) (admissible : field.Admissible)
    (nonnegative : 0 ≤ cursor)
    (read : field.reading context readings stream cursor = .ok reading) :
    readFields context (front ++ stream ++ back) (field :: rest)
        (readings.map (Reading.moved front.size)) (cursor + front.size) =
      readFields context (front ++ stream ++ back) rest
        ((readings.insert field.name reading).map (Reading.moved front.size))
        (reading.stop + front.size) := by
  have room := Bytes.room_embedded front stream back
  have within := admissible.reading_inside (by omega) nonnegative read
  have stop : (reading.moved front.size).stop = reading.stop + front.size :=
    within.stop_moved small (by omega)
  simp only [readFields, Field.reading_moved small aligned admissible nonnegative read, bind,
    Except.bind, stop, Table.map_insert]

variable (aligned : ∀ field ∈ fields, ∀ align ∈ field.align, align ∣ (front.size : Int))
  (admissible : ∀ field ∈ fields, field.Admissible) (nonnegative : 0 ≤ cursor)
include aligned admissible nonnegative

theorem readFields_moved
    (read : readFields context stream fields readings cursor = .ok (last, stop)) :
    readFields context (front ++ stream ++ back) fields (readings.map (Reading.moved front.size))
      (cursor + front.size) = .ok (last.map (Reading.moved front.size), stop + front.size) := by
  have room := Bytes.room_embedded front stream back
  induction fields generalizing readings cursor with
  | nil =>
      cases read
      rfl
  | cons field rest ih =>
      obtain ⟨onBoundary, others⟩ := List.forall_mem_cons.mp aligned
      obtain ⟨valid, validRest⟩ := List.forall_mem_cons.mp admissible
      obtain ⟨reading, head, more⟩ := Except.bind_eq_ok.mp read
      rw [readFields_cons_moved small onBoundary valid nonnegative head]
      exact ih others validRest (valid.stop_inside (by omega) nonnegative head).1 more

theorem readFields_refused {error : DecodeError} (final : error.cause.IsFinal)
    (failed : readFields context stream fields readings cursor = .error error) :
    readFields context (front ++ stream ++ back) fields (readings.map (Reading.moved front.size))
      (cursor + front.size) = .error (error.moved front.size) := by
  have room := Bytes.room_embedded front stream back
  induction fields generalizing readings cursor with
  | nil => contradiction
  | cons field rest ih =>
      obtain ⟨onBoundary, others⟩ := List.forall_mem_cons.mp aligned
      obtain ⟨valid, validRest⟩ := List.forall_mem_cons.mp admissible
      cases read : field.reading context readings stream cursor with
      | error reason =>
          simp only [readFields, read, bind, Except.bind, Except.error.injEq] at failed
          subst failed
          simp only [readFields, bind, Except.bind,
            Field.reading_refused small onBoundary valid nonnegative final read]
      | ok reading =>
          simp only [readFields, read, bind, Except.bind] at failed
          rw [readFields_cons_moved small onBoundary valid nonnegative read]
          exact ih others validRest (valid.stop_inside (by omega) nonnegative read).1 failed

end Fields

section Candidate

variable {layout : Layout} {earlier : List Layout} {maxSize : Int} {store : Store} {place : Nat}
  (wellFormed : layout.WellFormed earlier) (small : (front ++ stream ++ back).size < 2 ^ 53)
  (aligned : ∀ field ∈ layout.fields, ∀ align ∈ field.align, align ∣ (front.size : Int))
  (start : Number.add (front.size + place : Nat) layout.signature.size =
    Number.add place layout.signature.size + front.size)
include wellFormed small aligned start

theorem WellFormed.candidate_moved {record : Record}
    (decoded : layout.candidate stream maxSize store place = .ok record) :
    layout.candidate (front ++ stream ++ back) maxSize store (front.size + place : Nat) =
      .ok (record.moved front.size) := by
  have room := Bytes.room_embedded front stream back
  have nonnegative : 0 ≤ Number.add place layout.signature.size := Number.round_nonneg (by omega)
  rw [candidate_eq_readFields (by omega : stream.size < 2 ^ 53) wellFormed.admissible] at decoded
  split at decoded
  · contradiction
  · next fields stop read =>
      cases decoded
      have again := readFields_moved small aligned wellFormed.admissible nonnegative read
      have place : ((front.size + place : Nat) : Int) = place + front.size := by omega
      change readFields _ _ _ Table.empty _ = _ at again
      rw [candidate_eq_readFields small wellFormed.admissible, start, again, place]
      rfl

theorem WellFormed.candidate_refused {error : DecodeError} (final : error.cause.IsFinal)
    (failed : layout.candidate stream maxSize store place = .error (.refused error)) :
    layout.candidate (front ++ stream ++ back) maxSize store (front.size + place : Nat) =
      .error (.refused (error.moved front.size)) := by
  have room := Bytes.room_embedded front stream back
  have nonnegative : 0 ≤ Number.add place layout.signature.size := Number.round_nonneg (by omega)
  rw [candidate_eq_readFields (by omega : stream.size < 2 ^ 53) wellFormed.admissible] at failed
  split at failed
  · next reason stopped =>
      cases failed
      have again := readFields_refused small aligned wellFormed.admissible nonnegative final stopped
      change readFields _ _ _ Table.empty _ = _ at again
      rw [candidate_eq_readFields small wellFormed.admissible, start, again]
  · contradiction

end Candidate

/-- A candidate does not depend on where its stream stands, up to the boundaries of its fields: in
front of other bytes and behind a multiple of every boundary it is decoded to the same record, with
all places moved, unless its signature ends behind 2^53.  What comes behind the stream helps only
against a refusal for want of bytes. -/
theorem candidate_embedded {document : Document} {streamLength : Option Int} {plan : Plan}
    (compiled : Plan.ofDocument document streamLength = .ok plan) {layout : Layout}
    (declared : layout ∈ plan.layouts) (small : (front ++ stream ++ back).size < 2 ^ 53)
    (aligned : ∀ field ∈ layout.fields, ∀ align ∈ field.align, align ∣ (front.size : Int))
    (maxSize : Int) (store : Store) (place : Nat) :
    (front.size + place + layout.signature.size ≤ 2 ^ 53 →
      ∀ record, layout.candidate stream maxSize store place = .ok record →
        layout.candidate (front ++ stream ++ back) maxSize store (front.size + place : Nat) =
          .ok (record.moved front.size)) ∧
    (∀ error : DecodeError, error.cause.IsFinal →
      layout.candidate stream maxSize store place = .error (.refused error) →
      layout.candidate (stream ++ back) maxSize store place = .error (.refused error)) ∧
    ∀ failure, layout.candidate stream maxSize store place = .error failure →
      ∀ record, layout.candidate (stream ++ back) maxSize store place = .ok record →
        ∃ error : DecodeError, failure = .refused error ∧ ¬ error.cause.IsFinal := by
  obtain ⟨earlier, wellFormed⟩ := (Plan.wellFormed_ofDocument compiled).layout declared
  have refusedAgain (error : DecodeError) (final : error.cause.IsFinal)
      (failed : layout.candidate stream maxSize store place = .error (.refused error)) :
      layout.candidate (stream ++ back) maxSize store place = .error (.refused error) := by
    have smallBehind : (#[] ++ stream ++ back).size < 2 ^ 53 := by
      simp only [Array.size_append] at small
      rw [Array.empty_append, Array.size_append]
      omega
    have again := wellFormed.candidate_refused smallBehind (fun _ _ align _ => Int.dvd_zero align)
      (by simp) final failed
    have same : error.moved (#[] : Bytes).size = error := by
      simp [DecodeError.moved]
    rwa [same, Array.empty_append, List.size_toArray, List.length_nil, Nat.zero_add] at again
  refine ⟨fun exact record decoded => ?_, refusedAgain, fun failure failed record decoded => ?_⟩
  · refine wellFormed.candidate_moved small aligned ?_ decoded
    rw [Number.add_of_natAbs_le (by omega), Number.add_of_natAbs_le (by omega)]
    omega
  · have room := Bytes.room_embedded front stream back
    obtain ⟨error, rfl⟩ :=
      candidate_faultless (by omega : stream.size < 2 ^ 53) wellFormed.admissible failed
    refine ⟨error, rfl, fun final => ?_⟩
    rw [refusedAgain error final failed] at decoded
    contradiction

/-- Two bytes in front of a footer move it by two, for its first field stands on an even place; a
note above the limit is refused with any bytes behind it. -/
theorem candidate_embedded_sample :
    Plan.sampleFooter.candidate (#[9, 9] ++ sampleStream ++ #[0xff]) maxSizeLimit .empty
        (2 + 1 : Nat) = .ok (sampleRecord.moved 2) ∧
      Plan.sampleFooter.candidate (sampleStream ++ #[0xff]) 3 .empty (1 : Nat) =
        .error (.refused ⟨"note", 8, .sizeOverflow 4 3⟩) := by
  have small : (#[9, 9] ++ sampleStream ++ #[0xff] : Bytes).size < 2 ^ 53 := by decide
  have aligned : ∀ field ∈ Plan.sampleFooter.fields, ∀ align ∈ field.align,
      align ∣ ((#[9, 9] : Bytes).size : Int) := by
    simp [Plan.sampleFooter]
  have refused : Plan.sampleFooter.candidate sampleStream 3 .empty (1 : Nat) =
      .error (.refused ⟨"note", 8, .sizeOverflow 4 3⟩) := by
    decide +kernel
  have declared : Plan.sampleFooter ∈ [Plan.sampleFooter] := .head _
  constructor
  · exact (candidate_embedded Plan.ofDocument_sampleFooterDocument declared small aligned
      maxSizeLimit .empty 1).1 (by decide) sampleRecord candidate_sampleStream
  · exact (candidate_embedded Plan.ofDocument_sampleFooterDocument declared small aligned 3 .empty
      1).2.1 _ trivial refused

/-- A structure without fields that three bytes are the signature of. -/
def sampleBareDocument : Document where
  byteOrder := some .big
  constants := none
  structures :=
    [{ name := "mark", signature := .literal "0x616263", byteOrder := none, hint := none
       fields := [] }]

def sampleBare : Layout where
  name := "mark"
  signature := #[0x61, 0x62, 0x63]
  byteOrder := .big
  hint := none
  fields := []

theorem candidate_sampleBare (stream : Bytes) (place : Int) :
    sampleBare.candidate stream maxSizeLimit .empty place =
      .ok ⟨"mark", place, Number.add place 3, Number.add place 3, .empty⟩ := rfl

/-- Places above 2^53 are rounded.  So a signature that sticks out of a stream of 2^53 - 2 bytes may
end one byte too early, and one too late with another byte in front. -/
theorem candidate_not_embedded :
    ¬ ∀ (document : Document) (streamLength : Option Int) (plan : Plan),
      Plan.ofDocument document streamLength = .ok plan → ∀ layout ∈ plan.layouts,
        ∀ front stream back : Bytes, (front ++ stream ++ back).size < 2 ^ 53 →
          (∀ field ∈ layout.fields, ∀ align ∈ field.align, align ∣ (front.size : Int)) →
          ∀ (maxSize : Int) (store : Store) (place : Nat), 0 ≤ maxSize → maxSize ≤ maxSizeLimit →
            place ≤ stream.size → ∀ record,
              layout.candidate stream maxSize store place = .ok record →
              layout.candidate (front ++ stream ++ back) maxSize store (front.size + place : Nat) =
                .ok (record.moved front.size) := by
  intro embedded
  let stream : Bytes := Array.replicate (2 ^ 53 - 2) 0
  have compiled : Plan.ofDocument sampleBareDocument none = .ok ⟨.big, [sampleBare]⟩ := rfl
  have size : stream.size = 2 ^ 53 - 2 := Array.size_replicate
  have small : (#[0] ++ stream ++ #[] : Bytes).size < 2 ^ 53 := by
    rw [Array.append_empty, Array.size_append, size]
    decide
  have moved := embedded _ none _ compiled sampleBare (.head _) #[0] stream #[] small
    (by simp [sampleBare]) maxSizeLimit .empty (2 ^ 53 - 2) (by decide) (Int.le_refl _)
    (Nat.le_of_eq size.symm) _ (candidate_sampleBare stream _)
  rw [candidate_sampleBare] at moved
  have start := congrArg Record.start (Except.ok.inj moved)
  revert start
  decide +kernel

end Layout

end Carve
