import Carve.Proofs.Encoding
import Carve.Proofs.Field.Position
import Carve.Proofs.Plan.Compiled
import Carve.Proofs.Reference

namespace Carve

/-- What each field is to hold. -/
abbrev Assignment := String → Value

/-- The value that a size is taken from: one assigned to the structure itself, or one of the latest
record of another structure. -/
def Reference.assigned (reference : Reference) (assign : Assignment) (store : Store)
    (enclosing : String) : Option Value :=
  match reference.owner with
  | none => some (assign reference.field)
  | some owner =>
      if owner = enclosing then some (assign reference.field)
      else (store.latestOf owner).bind fun record => record.value? reference.field

/-- The value assigned to a field is one of its content, and as long as the field's size says. -/
structure Field.Takes (enclosing : String) (assign : Assignment) (store : Store) (maxSize : Int)
    (field : Field Int) : Prop where
  holds : field.content.Holds (assign field.name).stored
  literal : ∀ count, field.content.size? = some (.literal count) →
    count = (assign field.name).width
  reference : ∀ reference, field.content.size? = some (.reference reference) →
    ∃ value, reference.assigned assign store enclosing = some value ∧
      value.size? = some ((assign field.name).width : Int) ∧ (assign field.name).width ≤ maxSize

/-- What a field is to be read as from a cursor on. -/
def Field.expected (field : Field Int) (assign : Assignment) (cursor : Nat) : Reading where
  value := (assign field.name).stored
  offset := field.place cursor
  size := (assign field.name).width

/-- What stands between two fields: bytes of no account, taken from their places in the stream. -/
def gap (filler : Nat → UInt8) (start stop : Nat) : Bytes :=
  ((List.range' start (stop - start)).map filler).toArray

theorem size_gap (filler : Nat → UInt8) (start stop : Nat) :
    (gap filler start stop).size = stop - start := by
  simp [gap]

namespace Layout

/-- The bytes of fields one behind the other, the first one written from a cursor on. -/
def encodeFields (order : ByteOrder) (assign : Assignment) (filler : Nat → UInt8) :
    List (Field Int) → Nat → Except Fault Bytes
  | [], _ => .ok #[]
  | field :: rest, cursor => do
      let start := field.place cursor
      let bytes ← (assign field.name).encode order
      let more ← encodeFields order assign filler rest (start + bytes.size)
      .ok (gap filler cursor start ++ bytes ++ more)

/-- The bytes of a structure whose signature begins at `base`. -/
def encode (layout : Layout) (assign : Assignment) (filler : Nat → UInt8) (base : Nat) :
    Except Fault Bytes := do
  let fields ← encodeFields layout.byteOrder assign filler layout.fields
    (base + layout.signature.size)
  .ok (layout.signature ++ fields)

/-- What fields are to be read as, the first one from a cursor on. -/
def expected (assign : Assignment) : List (Field Int) → Nat → List (String × Reading)
  | [], _ => []
  | field :: rest, cursor =>
      (field.name, field.expected assign cursor) ::
        expected assign rest (field.place cursor + (assign field.name).width)

end Layout

theorem Value.size?_stored (value : Value) : value.stored.size? = value.size? := by
  cases value <;> rfl

/-- The fields have been read as what was assigned to them. -/
def Table.Carries (readings : Table Reading) (assign : Assignment) (fields : List (Field Int)) :
    Prop :=
  ∀ field ∈ fields, ∃ reading, readings.find? field.name = some reading ∧
    reading.value = (assign field.name).stored

theorem Table.Carries.insert {readings : Table Reading} {assign : Assignment}
    {fields : List (Field Int)} (carries : readings.Carries assign fields) {field : Field Int}
    (fresh : ∀ other ∈ fields, other.name ≠ field.name) (cursor : Nat) :
    (readings.insert field.name (field.expected assign cursor)).Carries assign
      (fields ++ [field]) := by
  intro other member
  rcases List.mem_append.mp member with earlier | last
  · obtain ⟨reading, read, same⟩ := carries other earlier
    exact ⟨reading, by rw [find?_insert, if_neg (fresh other earlier), read], same⟩
  · cases List.mem_singleton.mp last
    exact ⟨_, by rw [find?_insert, if_pos rfl], rfl⟩

section Resolution

variable {assign : Assignment} {store : Store} {enclosing : String} {earlier : List Layout}
  {before : List (Field Int)} {reference : Reference} {readings : Table Reading}

theorem Reference.assigned_local (isLocal : reference.IsLocal enclosing) :
    reference.assigned assign store enclosing = some (assign reference.field) := by
  unfold assigned
  cases owned : reference.owner with
  | none => rfl
  | some owner => exact if_pos (isLocal owner owned)

/-- What a size is taken from when the fields are read is what it was taken from in writing. -/
theorem Reference.Grounded.resolve_eq (grounded : reference.Grounded enclosing earlier before)
    (carries : readings.Carries assign before) {value : Value} {number : Int}
    (assigned : reference.assigned assign store enclosing = some value)
    (sized : value.size? = some number) :
    reference.resolve store readings enclosing = .ok number := by
  cases grounded with
  | inside field isLocal declared named integer =>
      obtain ⟨reading, read, same⟩ := carries field declared
      rw [assigned_local isLocal, Option.some.injEq, ← named] at assigned
      rw [named] at read
      refine resolve_of_source (source_local store isLocal) read ?_
      rw [same, Value.size?_stored, assigned, sized]
  | outside source field owned foreign scanned declared named integer =>
      simp only [Reference.assigned, owned, if_neg foreign] at assigned
      obtain ⟨record, latest, held⟩ := Option.bind_eq_some_iff.mp assigned
      obtain ⟨reading, read, rfl⟩ := Option.map_eq_some_iff.mp held
      exact resolve_of_source (source_foreign readings owned foreign latest) read sized

end Resolution

section Step

variable {field : Field Int} {layout : Layout} {earlier : List Layout} {before : List (Field Int)}
  {assign : Assignment} {store : Store} {maxSize : Int} {readings : Table Reading} {position : Int}

theorem Field.Takes.extent_eq (takes : field.Takes layout.name assign store maxSize)
    (valid : field.WellFormed layout.name earlier before) (limit : maxSize ≤ maxSizeLimit)
    (carries : readings.Carries assign before) :
    field.extent (layout.context maxSize store) readings position =
      .ok ((assign field.name).width : Int) := by
  cases declared : field.content.size? with
  | none =>
      cases content : field.content with
      | primitive type =>
          have holds := takes.holds
          rw [content] at holds
          obtain ⟨_, _, _, width, _⟩ := Primitive.value_encode layout.byteOrder holds
          simp only [extent, content, width]
      | buffer size | text size =>
          rw [content] at declared
          contradiction
  | some size =>
      rw [extent_eq_size declared]
      cases size with
      | literal count =>
          rw [takes.literal count declared]
          rfl
      | reference reference =>
          obtain ⟨value, assigned, sized, below⟩ := takes.reference reference declared
          have resolved := (valid.grounded reference declared).resolve_eq carries assigned sized
          exact size_reference_eq_ok.mpr ⟨resolved, Int.natCast_nonneg _,
            Int.le_min.mpr ⟨below, Int.le_trans below limit⟩⟩

/-- A field whose bytes stand in its place is read as the value assigned to it. -/
theorem Field.Takes.reading_eq (takes : field.Takes layout.name assign store maxSize)
    (valid : field.WellFormed layout.name earlier before) (limit : maxSize ≤ maxSizeLimit)
    (forward : ∀ offset ∈ field.offset, 0 ≤ offset) (carries : readings.Carries assign before)
    {ahead bytes after : Bytes} {cursor : Nat} (placed : ahead.size = field.place cursor)
    (encoded : (assign field.name).encode layout.byteOrder = .ok bytes)
    (small : (ahead ++ bytes ++ after).size < 2 ^ 53) :
    field.reading (layout.context maxSize store) readings (ahead ++ bytes ++ after) cursor =
      .ok (field.expected assign cursor) := by
  have admissible := valid.toAdmissible
  have behind := admissible.le_place cursor
  have written := Bytes.extract_middle ahead bytes after
  have total : (ahead ++ bytes ++ after).size = ahead.size + bytes.size + after.size := by
    simp only [Array.size_append]
  obtain ⟨other, again, width, read⟩ := Content.value?_encode layout.byteOrder takes.holds
  obtain rfl : bytes = other := Except.ok.inj (encoded.symm.trans again)
  have start : (field.place cursor : Int).toNat = ahead.size := by omega
  have stop : ((field.place cursor : Int) + (assign field.name).width).toNat =
      ahead.size + bytes.size := by
    omega
  rw [admissible.reading_eq_ok small (by omega)]
  refine ⟨admissible.position_eq_place small forward (by omega),
    takes.extent_eq valid limit carries, by dsimp only [Field.expected]; omega, ?_⟩
  simp only [Field.expected, start, stop, written]
  exact read

theorem Field.expected_stop {cursor : Nat}
    (small : field.place cursor + (assign field.name).width < 2 ^ 53) :
    (field.expected assign cursor).stop =
      (field.place cursor + (assign field.name).width : Nat) := by
  change Number.add (field.place cursor) (assign field.name).width = _
  rw [Number.add_of_natAbs_le (by omega)]
  omega

end Step

namespace Layout

variable {layout : Layout} {earlier : List Layout} {assign : Assignment} {store : Store}
  {maxSize : Int} {before rest : List (Field Int)} {readings : Table Reading}

/-- Fields behind those of `before` are written, and wherever their bytes stand they are read as
what was assigned to them. -/
theorem WellFormed.readFields_encodeFields (wellFormed : layout.WellFormed earlier)
    (limit : maxSize ≤ maxSizeLimit)
    (forward : ∀ field ∈ layout.fields, ∀ offset ∈ field.offset, 0 ≤ offset)
    (takes : ∀ field ∈ layout.fields, field.Takes layout.name assign store maxSize)
    (filler : Nat → UInt8) (split : layout.fields = before ++ rest)
    (names : readings.names = before.map Field.name) (carries : readings.Carries assign before)
    (cursor : Nat) :
    ∃ body, encodeFields layout.byteOrder assign filler rest cursor = .ok body ∧
      ∀ front tail : Bytes, front.size = cursor → (front ++ body ++ tail).size < 2 ^ 53 →
        ∃ last, readFields (layout.context maxSize store) (front ++ body ++ tail) rest readings
            cursor = .ok (last, (front ++ body).size) ∧
          last.entries = readings.entries ++ expected assign rest cursor ∧
          last.Carries assign layout.fields := by
  induction rest generalizing before readings cursor with
  | nil =>
      refine ⟨#[], rfl, fun front tail same small => ⟨readings, ?_, ?_, ?_⟩⟩
      · simp [readFields, same]
      · simp [expected]
      · rw [split, List.append_nil]
        exact carries
  | cons field rest ih =>
      have member : field ∈ layout.fields := by simp [split]
      have valid := wellFormed.fields before field rest split
      obtain ⟨bytes, encoded, width, _⟩ :=
        Content.value?_encode layout.byteOrder (takes field member).holds
      have fresh : field.name ∉ readings.names := by
        rw [names, List.mem_map]
        rintro ⟨other, declared, same⟩
        exact valid.fresh other declared same
      have namesNext : (readings.insert field.name (field.expected assign cursor)).names =
          (before ++ [field]).map Field.name := by
        rw [Table.names_insert, if_neg fresh, names, List.map_append]
        rfl
      obtain ⟨more, encodedMore, works⟩ :=
        ih (by simp [split]) namesNext (carries.insert valid.fresh cursor)
          (field.place cursor + (assign field.name).width)
      refine ⟨gap filler cursor (field.place cursor) ++ bytes ++ more, ?_, ?_⟩
      · simp only [encodeFields, encoded, width, encodedMore, bind, Except.bind]
      · intro front tail same small
        have behind := valid.toAdmissible.le_place cursor
        -- The gap belongs to what stands in front of the field, where the induction goes on.
        obtain ⟨ahead, aheadEq⟩ :
            ∃ ahead, ahead = front ++ gap filler cursor (field.place cursor) := ⟨_, rfl⟩
        have placed : ahead.size = field.place cursor := by
          rw [aheadEq, Array.size_append, size_gap, same]
          omega
        have whole : front ++ (gap filler cursor (field.place cursor) ++ bytes ++ more) =
            ahead ++ bytes ++ more := by
          simp only [aheadEq, Array.append_assoc]
        rw [whole] at small ⊢
        obtain ⟨last, read, entries, carriesLast⟩ :=
          works (ahead ++ bytes) tail (by rw [Array.size_append, placed, width]) small
        rw [Array.append_assoc] at small read ⊢
        have room : (ahead ++ bytes ++ (more ++ tail)).size =
            ahead.size + bytes.size + (more ++ tail).size := by
          simp only [Array.size_append]
        have head := (takes field member).reading_eq valid limit (forward field member) carries
          placed encoded small
        refine ⟨last, ?_, ?_, carriesLast⟩
        · simp only [readFields, head, bind, Except.bind]
          rw [Field.expected_stop (by omega)]
          exact read
        · rw [entries, Table.entries_insert _ _ fresh, List.append_assoc]
          rfl

/-- Decoding undoes encoding.  A structure whose offsets do not lead back can be written, with any
values of its contents that are as long as its sizes say.  Wherever it then stands in a stream, the
candidate there holds what was written, where it was written, and ends behind it. -/
theorem candidate_of_encode {document : Document} {streamLength : Option Int} {plan : Plan}
    (compiled : Plan.ofDocument document streamLength = .ok plan) (declared : layout ∈ plan.layouts)
    (forward : ∀ field ∈ layout.fields, ∀ offset ∈ field.offset, 0 ≤ offset)
    (limit : maxSize ≤ maxSizeLimit)
    (takes : ∀ field ∈ layout.fields, field.Takes layout.name assign store maxSize)
    (filler : Nat → UInt8) (head : Bytes) :
    ∃ body, layout.encode assign filler head.size = .ok body ∧
      ∀ tail : Bytes, (head ++ body ++ tail).size < 2 ^ 53 →
        ∃ record, layout.candidate (head ++ body ++ tail) maxSize store head.size = .ok record ∧
          record.structureName = layout.name ∧ record.signatureOffset = head.size ∧
          record.start = (head.size + layout.signature.size : Nat) ∧
          record.stop = (head ++ body).size ∧
          record.fields.entries =
            expected assign layout.fields (head.size + layout.signature.size) ∧
          ∀ field ∈ layout.fields, record.value? field.name = some (assign field.name).stored ∧
            (field.content.Holds (assign field.name) →
              (assign field.name).stored = assign field.name) := by
  obtain ⟨earlier, wellFormed⟩ := (Plan.wellFormed_ofDocument compiled).layout declared
  have nothing : (Table.empty : Table Reading).Carries assign [] := by
    intro field member
    contradiction
  obtain ⟨body, encoded, works⟩ :=
    wellFormed.readFields_encodeFields limit forward takes filler (List.nil_append _).symm rfl
      nothing (head.size + layout.signature.size)
  refine ⟨layout.signature ++ body, by simp only [encode, encoded, bind, Except.bind], ?_⟩
  intro tail small
  rw [← Array.append_assoc] at small ⊢
  obtain ⟨last, read, entries, carries⟩ :=
    works (head ++ layout.signature) tail Array.size_append small
  have room : head.size + layout.signature.size ≤
      (head ++ layout.signature ++ body ++ tail).size := by
    simp only [Array.size_append]
    omega
  rw [candidate_eq small wellFormed.admissible room, read]
  refine ⟨_, rfl, rfl, rfl, rfl, rfl, entries, fun field member => ⟨?_, fun holds => ?_⟩⟩
  · obtain ⟨reading, found, same⟩ := carries field member
    simp only [Record.value?, found, Option.map_some, same]
  · exact holds.stored_eq

def sampleAssignment : Assignment
  | "size" => .uint 8 3
  | _ => .bytes #[1, 2, 3]

/-- A block of three bytes, written behind one other byte and in front of another. -/
theorem candidate_of_encode_sample :
    ∃ record, Plan.sampleBlock.candidate #[9, 0x61, 0x61, 3, 0, 1, 2, 3, 9] maxSizeLimit .empty 1 =
        .ok record ∧ record.stop = 8 ∧
      record.value? "size" = some (.uint 8 3) ∧
      record.value? "data" = some (.bytes #[1, 2, 3]) := by
  have size : Field.Takes "block" sampleAssignment .empty maxSizeLimit
      { name := "size", content := .primitive (.integer { signed := false, width := .one })
        align := none, offset := none } :=
    { holds := .unsigned .one (by decide) (by decide)
      literal := by simp [Content.size?]
      reference := by simp [Content.size?] }
  have data : Field.Takes "block" sampleAssignment .empty maxSizeLimit
      { name := "data", content := .buffer (.reference ⟨"size", none⟩)
        align := none, offset := some 1 } :=
    { holds := ⟨_, rfl⟩
      literal := by simp [Content.size?]
      reference := by
        rintro _ ⟨⟩
        exact ⟨_, rfl, rfl, by decide⟩ }
  obtain ⟨body, encoded, works⟩ :=
    candidate_of_encode Plan.ofDocument_sampleDocument (by simp : Plan.sampleBlock ∈ _) (by decide)
      (Int.le_refl maxSizeLimit) (by simpa [Plan.sampleBlock] using ⟨size, data⟩) (fun _ => 0) #[9]
  have bytes : Plan.sampleBlock.encode sampleAssignment (fun _ => 0) 1 =
      .ok #[0x61, 0x61, 3, 0, 1, 2, 3] := rfl
  obtain rfl := Except.ok.inj (bytes.symm.trans encoded)
  obtain ⟨record, decoded, _, _, _, stop, _, values⟩ := works #[9] (by decide)
  refine ⟨record, decoded, stop, ?_, ?_⟩
  · exact (values _ (.head _)).1
  · exact (values _ (.tail _ (.head _))).1

end Layout

end Carve
