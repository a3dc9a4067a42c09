import Carve.Proofs.Value

namespace Carve

/-- Every field has been read, with a value of its content. -/
def Table.Conforms (readings : Table Reading) (fields : List (Field Int)) : Prop :=
  ∀ field ∈ fields, ∃ reading, readings.find? field.name = some reading ∧
    field.content.Holds reading.value

namespace Layout

/-- Decoding of the fields where no fault can arise. -/
def readFields (context : DecodeContext) (stream : Bytes) :
    List (Field Int) → Table Reading → Int → Except DecodeError (Table Reading × Int)
  | [], readings, cursor => .ok (readings, cursor)
  | field :: rest, readings, cursor => do
      let reading ← field.reading context readings stream cursor
      readFields context stream rest (readings.insert field.name reading) reading.stop

variable {context : DecodeContext} {stream : Bytes} {fields : List (Field Int)}
  {readings last : Table Reading} {cursor stop : Int} {error : DecodeError}

theorem readFields_append {before after : List (Field Int)} :
    readFields context stream (before ++ after) readings cursor =
      readFields context stream before readings cursor >>= fun (reached, place) =>
        readFields context stream after reached place := by
  induction before generalizing readings cursor with
  | nil => rfl
  | cons field rest ih =>
      simp only [List.cons_append, readFields, ih, bind_assoc]

/-- Where all fields are read, each of them is read behind those in front of it. -/
theorem readFields_at {before after : List (Field Int)} {field : Field Int}
    (read : readFields context stream (before ++ field :: after) readings cursor =
      .ok (last, stop)) :
    ∃ reached place reading,
      readFields context stream before readings cursor = .ok (reached, place) ∧
      field.reading context reached stream place = .ok reading ∧
      readFields context stream after (reached.insert field.name reading) reading.stop =
        .ok (last, stop) := by
  rw [readFields_append] at read
  obtain ⟨⟨reached, place⟩, front, read⟩ := Except.bind_eq_ok.mp read
  obtain ⟨reading, here, behind⟩ := Except.bind_eq_ok.mp read
  exact ⟨reached, place, reading, front, here, behind⟩

/-- A refusal comes from one field, behind fields that could be read. -/
theorem readFields_eq_error
    (failed : readFields context stream fields readings cursor = .error error) :
    ∃ before field after reached place, fields = before ++ field :: after ∧
      readFields context stream before readings cursor = .ok (reached, place) ∧
      field.reading context reached stream place = .error error := by
  induction fields generalizing readings cursor with
  | nil => contradiction
  | cons field rest ih =>
      cases read : field.reading context readings stream cursor with
      | error reason =>
          simp only [readFields, read, bind, Except.bind] at failed
          cases failed
          exact ⟨[], field, rest, readings, cursor, rfl, rfl, read⟩
      | ok reading =>
          simp only [readFields, read, bind, Except.bind] at failed
          obtain ⟨before, culprit, after, reached, place, rfl, earlier, refused⟩ := ih failed
          refine ⟨field :: before, culprit, after, reached, place, rfl, ?_, refused⟩
          simpa only [readFields, read, bind, Except.bind] using earlier

theorem readFields_keeps
    (read : readFields context stream fields readings cursor = .ok (last, stop)) {name : String}
    (elsewhere : ∀ field ∈ fields, field.name ≠ name) : last.find? name = readings.find? name := by
  induction fields generalizing readings cursor with
  | nil =>
      cases read
      rfl
  | cons field rest ih =>
      obtain ⟨reading, _, more⟩ := Except.bind_eq_ok.mp read
      rw [ih more fun other member => elsewhere other (by simp [member]), Table.find?_insert,
        if_neg fun same => elsewhere field (by simp) same.symm]

/-- What is read of a field, and of the fields in front of it, is still there in the end. -/
theorem readFields_behind {before after : List (Field Int)} {field : Field Int} {reading : Reading}
    (distinct : ((before ++ field :: after).map Field.name).Nodup)
    (behind : readFields context stream after (readings.insert field.name reading) cursor =
      .ok (last, stop)) :
    last.find? field.name = some reading ∧
      ∀ name ∈ before.map Field.name, last.find? name = readings.find? name := by
  rw [List.map_append, List.nodup_append, List.map_cons, List.nodup_cons] at distinct
  obtain ⟨_, ⟨fresh, _⟩, apart⟩ := distinct
  constructor
  · rw [readFields_keeps behind fun other member same =>
      fresh (List.mem_map.mpr ⟨other, member, same⟩), Table.find?_insert, if_pos rfl]
  · intro name member
    have notHere : name ≠ field.name := apart name member _ List.mem_cons_self
    rw [readFields_keeps behind fun other present same =>
      apart name member _ (List.mem_cons_of_mem _ (List.mem_map_of_mem present)) same.symm,
      Table.find?_insert, if_neg notHere]

theorem candidate_head {layout : Layout} {maxSize signatureOffset : Int} {store : Store}
    {record : Record}
    (decoded : layout.candidate stream maxSize store signatureOffset = .ok record) :
    record.structureName = layout.name ∧ record.signatureOffset = signatureOffset := by
  unfold candidate at decoded
  dsimp only at decoded
  split at decoded
  · contradiction
  · cases decoded
    exact ⟨rfl, rfl⟩

section Inside

variable (small : stream.size < 2 ^ 53)
include small

theorem readFields_inside (admissible : ∀ field ∈ fields, field.Admissible)
    (nonnegative : 0 ≤ cursor)
    (read : readFields context stream fields readings cursor = .ok (last, stop)) :
    0 ≤ stop ∧ stop ≤ max cursor stream.size := by
  induction fields generalizing readings cursor with
  | nil =>
      cases read
      exact ⟨nonnegative, Int.le_max_left _ _⟩
  | cons field rest ih =>
      obtain ⟨reading, head, more⟩ := Except.bind_eq_ok.mp read
      have within := (admissible field (by simp)).stop_inside small nonnegative head
      have behind := ih (fun other member => admissible other (by simp [member])) within.1 more
      omega

theorem decodeFields_eq (admissible : ∀ field ∈ fields, field.Admissible)
    (nonnegative : 0 ≤ cursor) :
    decodeFields context stream fields readings cursor =
      (readFields context stream fields readings cursor).mapError .refused := by
  induction fields generalizing readings cursor with
  | nil => rfl
  | cons field rest ih =>
      have head := admissible field (by simp)
      rw [decodeFields, readFields, head.decode_eq small nonnegative]
      cases read : field.reading context readings stream cursor with
      | error reason => rfl
      | ok reading =>
          exact ih (fun other member => admissible other (by simp [member]))
            (head.stop_inside small nonnegative read).1

theorem readFields_conforms (admissible : ∀ field ∈ fields, field.Admissible)
    (distinct : (fields.map Field.name).Nodup) (nonnegative : 0 ≤ cursor)
    (read : readFields context stream fields readings cursor = .ok (last, stop)) :
    last.Conforms fields := by
  induction fields generalizing readings cursor with
  | nil =>
      intro field member
      contradiction
  | cons field rest ih =>
      obtain ⟨reading, head, more⟩ := Except.bind_eq_ok.mp read
      obtain ⟨fresh, distinctRest⟩ := List.nodup_cons.mp distinct
      have others := ih (fun other member => admissible other (by simp [member])) distinctRest
        ((admissible field (by simp)).stop_inside small nonnegative head).1 more
      intro other member
      rcases List.mem_cons.mp member with rfl | later
      · refine ⟨reading, ?_, (admissible other (by simp)).reading_holds small nonnegative head⟩
        rw [readFields_keeps more fun next member same =>
          fresh (List.mem_map.mpr ⟨next, member, same⟩), Table.find?_insert, if_pos rfl]
      · exact others other later

variable {layout : Layout} {maxSize : Int} {store : Store} {place : Nat}

theorem candidate_eq_readFields (admissible : ∀ field ∈ layout.fields, field.Admissible) :
    layout.candidate stream maxSize store place =
      match readFields (layout.context maxSize store) stream layout.fields .empty
        (Number.add place layout.signature.size) with
      | .error error => .error (.refused error)
      | .ok (fields, stop) =>
          .ok { structureName := layout.name, signatureOffset := place,
                start := Number.add place layout.signature.size, stop, fields } := by
  have nonnegative : 0 ≤ Number.add place layout.signature.size := Number.round_nonneg (by omega)
  rw [candidate, decodeFields_eq small admissible nonnegative]
  cases readFields (layout.context maxSize store) stream layout.fields .empty
    (Number.add place layout.signature.size) <;> rfl

theorem candidate_eq_ok (admissible : ∀ field ∈ layout.fields, field.Admissible)
    {record : Record} :
    layout.candidate stream maxSize store place = .ok record ↔
      readFields (layout.context maxSize store) stream layout.fields .empty
          (Number.add place layout.signature.size) = .ok (record.fields, record.stop) ∧
        record.structureName = layout.name ∧ record.signatureOffset = place ∧
        record.start = Number.add place layout.signature.size := by
  rw [candidate_eq_readFields small admissible]
  obtain ⟨structureName, signatureOffset, start, stop, fields⟩ := record
  cases readFields (layout.context maxSize store) stream layout.fields .empty
    (Number.add place layout.signature.size) with
  | error error => simp
  | ok read =>
      simp only [Except.ok.injEq, Record.mk.injEq, Prod.ext_iff]
      grind

theorem candidate_faultless (admissible : ∀ field ∈ layout.fields, field.Admissible)
    {failure : DecodeFailure}
    (failed : layout.candidate stream maxSize store place = .error failure) :
    ∃ error, failure = .refused error := by
  rw [candidate_eq_readFields small admissible] at failed
  split at failed
  · next error _ =>
      cases failed
      exact ⟨error, rfl⟩
  · contradiction

theorem start_eq (room : place + layout.signature.size ≤ stream.size) :
    Number.add place layout.signature.size = (place + layout.signature.size : Nat) := by
  rw [Number.add_of_natAbs_le (by omega)]
  omega

theorem candidate_eq (admissible : ∀ field ∈ layout.fields, field.Admissible)
    (room : place + layout.signature.size ≤ stream.size) :
    layout.candidate stream maxSize store place =
      match readFields (layout.context maxSize store) stream layout.fields .empty
        (place + layout.signature.size : Nat) with
      | .error error => .error (.refused error)
      | .ok (fields, stop) =>
          .ok { structureName := layout.name, signatureOffset := place,
                start := (place + layout.signature.size : Nat), stop, fields } := by
  rw [candidate_eq_readFields small admissible, start_eq small room]

/-- What a record holds of a field was read behind the fields in front of it, which have kept what
was read of them. -/
theorem WellFormed.candidate_reading {earlier : List Layout}
    (wellFormed : layout.WellFormed earlier) {record : Record}
    (decoded : layout.candidate stream maxSize store place = .ok record)
    {before after : List (Field Int)} {field : Field Int}
    (split : layout.fields = before ++ field :: after) :
    ∃ reached cursor reading, 0 ≤ cursor ∧
      field.reading (layout.context maxSize store) reached stream cursor = .ok reading ∧
      record.fields.find? field.name = some reading ∧
      ∀ name ∈ before.map Field.name, record.fields.find? name = reached.find? name := by
  have admissible := wellFormed.admissible
  have distinct := wellFormed.distinct
  have start : 0 ≤ Number.add place layout.signature.size := Number.round_nonneg (by omega)
  rw [candidate_eq_readFields small admissible] at decoded
  rw [split] at admissible distinct decoded
  split at decoded
  · contradiction
  · next fields stop read =>
      cases decoded
      obtain ⟨reached, cursor, reading, front, here, behind⟩ := readFields_at read
      obtain ⟨kept, inFrontKept⟩ := readFields_behind distinct behind
      have within := readFields_inside small
        (fun other member => admissible other (by simp [member])) start front
      exact ⟨reached, cursor, reading, within.1, here, kept, inFrontKept⟩

theorem WellFormed.candidate_conforms {earlier : List Layout}
    (wellFormed : layout.WellFormed earlier)
    (room : place + layout.signature.size ≤ stream.size) {record : Record}
    (decoded : layout.candidate stream maxSize store place = .ok record) :
    record.fields.Conforms layout.fields := by
  rw [candidate_eq small wellFormed.admissible room] at decoded
  split at decoded
  · contradiction
  · next read =>
      cases decoded
      exact readFields_conforms small wellFormed.admissible wellFormed.distinct (by omega) read

end Inside

end Layout

end Carve
