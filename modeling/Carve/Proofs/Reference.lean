import Carve.Proofs.Candidate
import Carve.Proofs.Field.Refusal

namespace Carve

/-- The latest record of each of these structures holds values of its layout. -/
def Store.Conforms (store : Store) (layouts : List Layout) : Prop :=
  ∀ layout ∈ layouts, ∀ record, store.latestOf layout.name = some record →
    record.fields.Conforms layout.fields

namespace Reference

variable {reference : Reference} {enclosing : String} {store : Store}
  {readings fields : Table Reading} {declared : List (Field Int)} {field : Field Int}

theorem source_local (store : Store) (isLocal : reference.IsLocal enclosing) :
    reference.source store readings enclosing = .ok readings := by
  unfold source
  cases owned : reference.owner with
  | none => rfl
  | some owner => exact if_pos (isLocal owner owned)

theorem source_foreign (readings : Table Reading) {owner : String}
    (owned : reference.owner = some owner) (foreign : owner ≠ enclosing) {record : Record}
    (latest : store.latestOf owner = some record) :
    reference.source store readings enclosing = .ok record.fields := by
  simp only [source, owned, if_neg foreign, latest]

theorem resolve_of_source (found : reference.source store readings enclosing = .ok fields)
    {reading : Reading} (read : fields.find? reference.field = some reading) {number : Int}
    (sized : reading.value.size? = some number) :
    reference.resolve store readings enclosing = .ok number := by
  simp only [resolve, found, read, sized]

theorem resolve_eq_ok {number : Int} : reference.resolve store readings enclosing = .ok number ↔
    ∃ fields reading, reference.source store readings enclosing = .ok fields ∧
      fields.find? reference.field = some reading ∧ reading.value.size? = some number := by
  constructor
  · intro resolved
    unfold resolve at resolved
    split at resolved
    · contradiction
    · next fields found =>
        split at resolved
        · contradiction
        · next reading read =>
            split at resolved
            · next value sized =>
                cases resolved
                exact ⟨fields, reading, found, read, sized⟩
            · contradiction
  · intro known
    obtain ⟨fields, reading, found, read, sized⟩ := known
    exact resolve_of_source found read sized

theorem latestOf_of_source {owner : String} (owned : reference.owner = some owner)
    (foreign : owner ≠ enclosing) (found : reference.source store readings enclosing = .ok fields) :
    ∃ record, store.latestOf owner = some record ∧ record.fields = fields := by
  simp only [source, owned, if_neg foreign] at found
  split at found
  · next record latest =>
      cases found
      exact ⟨record, latest, rfl⟩
  · contradiction

theorem resolve_missing (readings : Table Reading) {owner : String}
    (owned : reference.owner = some owner) (foreign : owner ≠ enclosing)
    (missing : store.latestOf owner = none) :
    reference.resolve store readings enclosing = .error (.noRecord owner) := by
  simp only [resolve, source, owned, if_neg foreign, missing]

theorem resolve_exists (found : reference.source store readings enclosing = .ok fields)
    (conforms : fields.Conforms declared) (member : field ∈ declared)
    (named : field.name = reference.field) (integer : field.content.isReferenceable = true) :
    ∃ number, reference.resolve store readings enclosing = .ok number := by
  obtain ⟨reading, read, holds⟩ := conforms field member
  obtain ⟨number, sized⟩ := holds.size_exists integer
  rw [named] at read
  exact ⟨number, resolve_of_source found read sized⟩

/-- A grounded reference stays without a value only for want of a record. -/
theorem Grounded.resolve_eq_error {earlier : List Layout} {reason : Unresolved}
    (grounded : reference.Grounded enclosing earlier declared) (read : readings.Conforms declared)
    (kept : store.Conforms earlier)
    (failed : reference.resolve store readings enclosing = .error reason) :
    ∃ source ∈ earlier, reference.owner = some source.name ∧ source.name ≠ enclosing ∧
      store.latestOf source.name = none ∧ reason = .noRecord source.name := by
  cases grounded with
  | inside field isLocal member named integer =>
      obtain ⟨number, resolved⟩ :=
        resolve_exists (source_local store isLocal) read member named integer
      rw [resolved] at failed
      contradiction
  | outside source field owned foreign scanned member named integer =>
      cases latest : store.latestOf source.name with
      | none =>
          rw [resolve_missing readings owned foreign latest] at failed
          cases failed
          exact ⟨source, scanned, owned, foreign, latest, rfl⟩
      | some record =>
          obtain ⟨number, resolved⟩ :=
            resolve_exists (source_foreign readings owned foreign latest)
              (kept source scanned record latest) member named integer
          rw [resolved] at failed
          contradiction

end Reference

namespace Field

variable {field : Field Int} {context : DecodeContext} {readings : Table Reading} {stream : Bytes}
  {cursor position : Int} {reference : Reference}

theorem extent_eq_size {size : Size Int}
    (declared : field.content.size? = some size) :
    field.extent context readings position = field.size context readings position size := by
  unfold extent
  cases content : field.content <;> simp_all [Content.size?]

theorem size_reference_eq_ok {count : Int} :
    field.size context readings position (.reference reference) = .ok count ↔
      reference.resolve context.store readings context.structureName = .ok count ∧
        0 ≤ count ∧ count ≤ context.limit := by
  simp only [Field.size]
  cases reference.resolve context.store readings context.structureName with
  | error reason => simp
  | ok number =>
      by_cases outside : number < 0 ∨ context.limit < number
      · simp only [if_pos outside, reduceCtorEq, Except.ok.injEq, false_iff]
        omega
      · simp only [if_neg outside, Except.ok.injEq]
        omega

theorem readAt_cause {count : Int} {error : DecodeError}
    (failed : field.readAt context stream position count = .error error) :
    (∃ available, error.cause = .unexpectedEnd count available) ∨ error.cause = .invalidUtf8 := by
  simp only [readAt, require] at failed
  split at failed
  · next other short =>
      split at short <;> cases short
      cases failed
      exact .inl ⟨_, rfl⟩
  · split at failed <;> cases failed
    exact .inr rfl

/-- The size of a field alone brings in a reference. -/
theorem reading_unresolved {error : DecodeError} {reason : Reference.Unresolved}
    (failed : field.reading context readings stream cursor = .error error)
    (cause : error.cause = .unresolved reference reason) :
    field.content.size? = some (.reference reference) ∧
      reference.resolve context.store readings context.structureName = .error reason := by
  rcases reading_eq_error failed with
    unplaced | ⟨position, placed, unsized | ⟨count, sized, unread⟩⟩
  · obtain ⟨moved, outside, rfl⟩ := position_eq_error unplaced
    contradiction
  · obtain ⟨size, declared, unsized⟩ := extent_eq_error unsized
    obtain ⟨other, rfl, ⟨reason, unresolved, rfl⟩ | ⟨value, resolved, outside, rfl⟩⟩ :=
      size_eq_error unsized
    · cases cause
      exact ⟨declared, unresolved⟩
    · contradiction
  · rcases readAt_cause unread with ⟨available, short⟩ | invalid
    · simp [cause] at short
    · simp [cause] at invalid

theorem reading_extent {result : Reading}
    (read : field.reading context readings stream cursor = .ok result) :
    field.extent context readings result.offset = .ok result.size := by
  obtain ⟨position, _, read⟩ := Except.bind_eq_ok.mp read
  obtain ⟨count, sized, read⟩ := Except.bind_eq_ok.mp read
  simp only [readAt] at read
  split at read
  · contradiction
  · split at read
    · contradiction
    · cases read
      exact sized

end Field

namespace Layout

variable {layout : Layout} {earlier : List Layout} {stream : Bytes} {maxSize : Int} {store : Store}
  {place : Nat}

theorem WellFormed.candidate_unresolved (wellFormed : layout.WellFormed earlier)
    (small : stream.size < 2 ^ 53) (kept : store.Conforms earlier)
    (room : place + layout.signature.size ≤ stream.size) {error : DecodeError}
    {reference : Reference} {reason : Reference.Unresolved}
    (refused : layout.candidate stream maxSize store place = .error (.refused error))
    (cause : error.cause = .unresolved reference reason) :
    ∃ source ∈ earlier, reference.owner = some source.name ∧ source.name ≠ layout.name ∧
      store.latestOf source.name = none ∧ reason = .noRecord source.name := by
  have admissible := wellFormed.admissible
  have distinct := wellFormed.distinct
  rw [candidate_eq small admissible room] at refused
  split at refused
  · next failed =>
      cases refused
      obtain ⟨before, field, after, reached, cursor, split, read, stopped⟩ :=
        readFields_eq_error failed
      obtain ⟨declared, unresolved⟩ := Field.reading_unresolved stopped cause
      have conforms : reached.Conforms before := by
        rw [split] at admissible distinct
        refine readFields_conforms small (fun other member => admissible other (by simp [member]))
          ?_ (by omega) read
        exact distinct.sublist ((List.sublist_append_left _ _).map Field.name)
      have grounded := (wellFormed.fields before field after split).grounded reference declared
      exact grounded.resolve_eq_error conforms kept unresolved
  · contradiction

theorem WellFormed.candidate_of_missing (wellFormed : layout.WellFormed earlier)
    (small : stream.size < 2 ^ 53) (room : place + layout.signature.size ≤ stream.size)
    {field : Field Int} (member : field ∈ layout.fields) {reference : Reference}
    (declared : field.content.size? = some (.reference reference)) {owner : String}
    (owned : reference.owner = some owner) (foreign : owner ≠ layout.name)
    (missing : store.latestOf owner = none) (record : Record) :
    layout.candidate stream maxSize store place ≠ .ok record := by
  intro decoded
  obtain ⟨before, after, split⟩ := List.append_of_mem member
  rw [candidate_eq small wellFormed.admissible room, split] at decoded
  split at decoded
  · contradiction
  · next read =>
      obtain ⟨reached, cursor, reading, _, here, _⟩ := readFields_at read
      have sized := Field.reading_extent here
      rw [Field.extent_eq_size declared] at sized
      obtain ⟨resolved, _⟩ := Field.size_reference_eq_ok.mp sized
      have unresolved := Reference.resolve_missing reached owned foreign missing
      exact absurd (unresolved.symm.trans resolved) (by simp)

end Layout

/-- The integer under a name, if there is one. -/
def Record.integer? (record : Record) (name : String) : Option Int :=
  match record.value? name with
  | some (.uint _ number) | some (.int _ number) => some number
  | _ => none

theorem Record.integer?_of_size {record : Record} {name : String} {reading : Reading} {number : Int}
    (read : record.fields.find? name = some reading)
    (sized : reading.value.size? = some number) : record.integer? name = some number := by
  simp only [integer?, value?, read, Option.map_some]
  cases value : reading.value <;> simp_all [Value.size?]

/-- What a size comes to in a record of the structure `enclosing`, `before` being the fields in
front of the one that has the size, and `latest` the records that other structures stand with. -/
inductive Size.Gives (enclosing : String) (before : List (Field Int)) (record : Record)
    (latest : String → Option Record) (maxSize : Int) : Size Int → Int → Prop
  | literal (count : Int) : Gives enclosing before record latest maxSize (.literal count) count
  | own {reference : Reference} {count : Int} (isLocal : reference.IsLocal enclosing)
      (declared : reference.field ∈ before.map Field.name)
      (held : record.integer? reference.field = some count)
      (within : 0 ≤ count ∧ count ≤ maxSize) :
      Gives enclosing before record latest maxSize (.reference reference) count
  | foreign {reference : Reference} {owner : String} {source : Record} {count : Int}
      (owned : reference.owner = some owner) (elsewhere : owner ≠ enclosing)
      (stands : latest owner = some source) (held : source.integer? reference.field = some count)
      (within : 0 ≤ count ∧ count ≤ maxSize) :
      Gives enclosing before record latest maxSize (.reference reference) count

/-- The integer that a reference of the structure `enclosing` leads to: that of a field of `record`
among the fields `before`, or that of a field of the record that another structure stands with. -/
inductive Reference.LeadsTo (enclosing : String) (before : List (Field Int)) (record : Record)
    (latest : String → Option Record) (reference : Reference) (number : Int) : Prop
  | own (isLocal : reference.IsLocal enclosing) (declared : reference.field ∈ before.map Field.name)
      (held : record.integer? reference.field = some number)
  | foreign {owner : String} {source : Record} (owned : reference.owner = some owner)
      (elsewhere : owner ≠ enclosing) (stands : latest owner = some source)
      (held : source.integer? reference.field = some number)

section LeadsTo

variable {reference : Reference} {enclosing : String} {before : List (Field Int)} {record : Record}
  {latest other : String → Option Record} {number maxSize : Int}

theorem Reference.LeadsTo.gives (leads : reference.LeadsTo enclosing before record latest number)
    (within : 0 ≤ number ∧ number ≤ maxSize) :
    Size.Gives enclosing before record latest maxSize (.reference reference) number := by
  cases leads with
  | own isLocal declared held => exact .own isLocal declared held within
  | foreign owned elsewhere stands held => exact .foreign owned elsewhere stands held within

theorem Reference.LeadsTo.congr (leads : reference.LeadsTo enclosing before record latest number)
    (same : ∀ owner, reference.owner = some owner → owner ≠ enclosing →
      latest owner = other owner) :
    reference.LeadsTo enclosing before record other number := by
  cases leads with
  | own isLocal declared held => exact .own isLocal declared held
  | foreign owned elsewhere stands held =>
      rw [same _ owned elsewhere] at stands
      exact .foreign owned elsewhere stands held

/-- A grounded reference comes to what it leads to in a record that has kept the fields in front. -/
theorem Reference.Grounded.leadsTo {earlier : List Layout} {store : Store}
    {reached : Table Reading} (grounded : reference.Grounded enclosing earlier before)
    (kept : ∀ name ∈ before.map Field.name, record.fields.find? name = reached.find? name)
    (resolved : reference.resolve store reached enclosing = .ok number) :
    reference.LeadsTo enclosing before record store.latestOf number := by
  obtain ⟨source, target, found, held, integer⟩ := Reference.resolve_eq_ok.mp resolved
  cases grounded with
  | inside field isLocal inFront named _ =>
      have member : reference.field ∈ before.map Field.name := named ▸ List.mem_map_of_mem inFront
      cases (Reference.source_local store isLocal).symm.trans found
      rw [← kept _ member] at held
      exact .own isLocal member (Record.integer?_of_size held integer)
  | outside layout field owned foreign _ _ _ _ =>
      obtain ⟨latest, stands, rfl⟩ := Reference.latestOf_of_source owned foreign found
      exact .foreign owned foreign stands (Record.integer?_of_size held integer)

end LeadsTo

theorem Size.Gives.congr {enclosing : String} {before : List (Field Int)} {record : Record}
    {latest other : String → Option Record} {maxSize count : Int} {size : Size Int}
    (gives : size.Gives enclosing before record latest maxSize count)
    (same : ∀ reference owner, size = .reference reference → reference.owner = some owner →
      owner ≠ enclosing → latest owner = other owner) :
    size.Gives enclosing before record other maxSize count := by
  cases gives with
  | literal => exact .literal count
  | own isLocal declared held within => exact .own isLocal declared held within
  | foreign owned elsewhere stands held within =>
      rw [same _ _ rfl owned elsewhere] at stands
      exact .foreign owned elsewhere stands held within

namespace Layout

variable {layout : Layout} {earlier : List Layout} {stream : Bytes} {maxSize : Int} {store : Store}
  {place : Nat} {before after : List (Field Int)} {field : Field Int} {record : Record}
  {size : Size Int}

theorem WellFormed.candidate_sizes (wellFormed : layout.WellFormed earlier)
    (small : stream.size < 2 ^ 53) (room : place + layout.signature.size ≤ stream.size)
    (decoded : layout.candidate stream maxSize store place = .ok record)
    (split : layout.fields = before ++ field :: after)
    (declared : field.content.size? = some size) :
    ∃ reading, record.fields.find? field.name = some reading ∧
      size.Gives layout.name before record store.latestOf maxSize reading.size := by
  have valid := wellFormed.fields before field after split
  have distinct : ((before ++ field :: after).map Field.name).Nodup := split ▸ wellFormed.distinct
  rw [candidate_eq small wellFormed.admissible room, split] at decoded
  split at decoded
  · contradiction
  · next fields stop read =>
      cases decoded
      obtain ⟨reached, cursor, reading, _, here, behind⟩ := readFields_at read
      obtain ⟨kept, inFrontKept⟩ := readFields_behind distinct behind
      refine ⟨reading, kept, ?_⟩
      have sized := Field.reading_extent here
      rw [Field.extent_eq_size declared] at sized
      cases size with
      | literal count =>
          cases sized
          exact .literal _
      | reference reference =>
          obtain ⟨resolved, lower, upper⟩ := Field.size_reference_eq_ok.mp sized
          exact ((valid.grounded reference declared).leadsTo inFrontKept resolved).gives
            ⟨lower, Int.le_trans upper (Int.min_le_left _ _)⟩

end Layout

end Carve
