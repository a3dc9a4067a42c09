import Carve.Proofs.Pass.Pruning
import Carve.Proofs.Reference
import Carve.Proofs.Spans

/-!
The window of a `near` hint is wide enough.

The fields whose size is known beforehand take up what the layout reckons with
(`Layout.WellFormed.candidate_fixedSize`).  The others and the gaps between the fields are left to
the margin.  So the search for a record that reaches the anchor begins at its signature or in front
of it (`Layout.WellFormed.start_le`), and without a border it comes to that record
(`Pass.Course.finds`).
-/

namespace Carve

/-- The size of the field is the value of another one. -/
def Field.isReferenceSized (field : Field Int) : Bool :=
  match field.content.size? with
  | some (.reference _) => true
  | some (.literal _) | none => false

namespace Record

/-- The bytes that a record has read for a field, none if it lacks the field. -/
def sizeOf (record : Record) (field : Field Int) : Int :=
  ((record.fields.find? field.name).map Reading.size).getD 0

/-- The bytes that a record has read for some fields. -/
def bytesIn (record : Record) (fields : List (Field Int)) : Int :=
  Number.exactSum (fields.map record.sizeOf)

/-- What lies between the start of a record and its end and was read for none of the fields.  It is
negative if an offset leads back over bytes that are read again. -/
def gap (record : Record) (fields : List (Field Int)) : Int :=
  record.stop - record.start - record.bytesIn fields

theorem bytesIn_filter (record : Record) (kind : Field Int → Bool) (fields : List (Field Int)) :
    record.bytesIn (fields.filter kind) + record.bytesIn (fields.filter fun field => !kind field) =
      record.bytesIn fields := by
  unfold bytesIn
  induction fields with
  | nil => rfl
  | cons field rest ih =>
      cases known : kind field <;> simp [known] <;> omega

end Record

/-- The place that an anchor means in a stream, at its end at most. -/
def Anchor.place (anchor : Anchor Int) (length : Int) : Int :=
  match anchor with
  | .offset bound => min bound length
  | .streamStart => 0
  | .streamEnd => length

theorem Anchor.place_le (anchor : Anchor Int) (length : Nat) : anchor.place length ≤ length := by
  cases anchor with
  | offset bound => exact Int.min_le_right _ _
  | streamStart => exact Int.natCast_nonneg length
  | streamEnd => exact Int.le_refl _

/-- A window that reaches from the anchor back to a place begins there or in front of it. -/
theorem Hint.start_near_le {anchor : Anchor Int} {length place : Nat} {window : Int}
    (small : place ≤ 2 ^ 53) (reached : anchor.place length - place ≤ window) :
    Hint.start (some (.near anchor)) length window ≤ place := by
  have back (position : Int) (within : position - place ≤ window) :
      max 0 (Number.sub position window) ≤ place := by
    have rounded : Number.sub position window ≤ Number.round place :=
      Number.round_mono (by omega)
    rw [Number.round_of_natAbs_le (by omega)] at rounded
    omega
  cases anchor with
  | offset bound => exact back (min bound length) reached
  | streamStart => exact Int.natCast_nonneg place
  | streamEnd => exact back length reached

namespace Field

variable {field : Field Int}

theorem Admissible.fixedSize_nonneg (admissible : field.Admissible) : 0 ≤ field.fixedSize := by
  have counted := admissible.count
  unfold fixedSize
  split
  · exact Int.natCast_nonneg _
  · next count content => exact (counted count (by rw [content]; rfl)).1
  · next count content => exact (counted count (by rw [content]; rfl)).1
  · exact Int.le_refl 0
  · exact Int.le_refl 0

theorem fixedSize_of_isReferenceSized (supplied : field.isReferenceSized = true) :
    field.fixedSize = 0 := by
  unfold isReferenceSized Content.size? at supplied
  unfold fixedSize
  split <;> simp_all

theorem extent_eq_fixedSize {context : DecodeContext} {readings : Table Reading}
    {position count : Int} (known : field.isReferenceSized = false)
    (sized : field.extent context readings position = .ok count) : count = field.fixedSize := by
  unfold isReferenceSized Content.size? at known
  unfold extent at sized
  unfold fixedSize
  cases content : field.content with
  | primitive type => simpa [content, eq_comm] using sized
  | buffer size | text size =>
      cases size with
      | literal count => simpa [content, Field.size, eq_comm] using sized
      | reference reference => simp [content] at known

end Field

/-- Among fields that have the size known beforehand, if there is one, the others do not count. -/
theorem Record.bytesIn_known {record : Record} {fields : List (Field Int)}
    (sizes : ∀ field ∈ fields, field.isReferenceSized = false →
      record.sizeOf field = field.fixedSize) :
    record.bytesIn (fields.filter fun field => !field.isReferenceSized) =
      Number.exactSum (fields.map Field.fixedSize) := by
  unfold bytesIn
  induction fields with
  | nil => rfl
  | cons field rest ih =>
      obtain ⟨head, others⟩ := List.forall_mem_cons.mp sizes
      cases known : field.isReferenceSized with
      | false => simp [known, head known, ih others]
      | true => simp [known, Field.fixedSize_of_isReferenceSized known, ih others]

namespace Layout

variable {layout : Layout} {earlier : List Layout} {stream : Bytes} {maxSize : Int} {store : Store}
  {place : Nat} {record : Record}

/-- The sum of all that a `near` hint looks back over, without any rounding: the signature, the
fields whose size is declared, and the margin. -/
def exactWindow (layout : Layout) (margin : Int) : Int :=
  layout.signature.size + Number.exactSum (layout.fields.map Field.fixedSize) + margin

section Fixed

variable (admissible : ∀ field ∈ layout.fields, field.Admissible)
include admissible

theorem fixedSize_standsFor :
    Number.StandsFor layout.fixedSize (Number.exactSum (layout.fields.map Field.fixedSize)) ∧
      0 ≤ Number.exactSum (layout.fields.map Field.fixedSize) := by
  have nonnegative : ∀ size ∈ layout.fields.map Field.fixedSize, 0 ≤ size := by
    intro size listed
    obtain ⟨field, member, rfl⟩ := List.mem_map.mp listed
    exact (admissible field member).fixedSize_nonneg
  have folded : layout.fixedSize = (layout.fields.map Field.fixedSize).foldl Number.add 0 :=
    List.foldl_map.symm
  have none : Number.StandsFor 0 0 := .inl rfl
  have stands := none.foldl_add (Int.le_refl 0) nonnegative
  rw [Int.zero_add, ← folded] at stands
  exact ⟨stands, Number.exactSum_nonneg nonnegative⟩

/-- Below 2^53 nothing is lost of the sum of the sizes that are known before decoding. -/
theorem fixedSize_eq_exactSum (exact : layout.fixedSize < 2 ^ 53) :
    layout.fixedSize = Number.exactSum (layout.fields.map Field.fixedSize) ∧
      0 ≤ layout.fixedSize := by
  obtain ⟨same | ⟨large, _⟩, nonnegative⟩ := fixedSize_standsFor admissible
  · exact ⟨same, by omega⟩
  · omega

variable {reach margin : Int} (nonnegative : 0 ≤ margin)
include nonnegative

/-- The window is the exact one, or both reach over every stream. -/
theorem window_standsFor : Number.StandsFor (layout.window margin) (layout.exactWindow margin) ∧
    0 ≤ layout.exactWindow margin := by
  obtain ⟨fixed, positive⟩ := fixedSize_standsFor admissible
  have signature : (0 : Int) ≤ layout.signature.size := Int.natCast_nonneg _
  have known := fixed.add positive signature
  rw [Number.add_comm, Int.add_comm] at known
  rw [window, exactWindow]
  exact ⟨known.add (by omega) nonnegative, by omega⟩

theorem le_window (small : reach ≤ 2 ^ 53)
    (within : reach ≤ layout.signature.size + layout.fixedSize + margin) :
    reach ≤ layout.window margin := by
  obtain ⟨fixed, _⟩ := fixedSize_standsFor admissible
  obtain ⟨stands, _⟩ := window_standsFor admissible nonnegative
  rw [exactWindow] at stands
  rcases fixed with same | ⟨_, large⟩ <;> rcases stands with sameWindow | ⟨wide, _⟩ <;> omega

end Fixed

section Decoded

variable (wellFormed : layout.WellFormed earlier) (small : stream.size < 2 ^ 53)
  (decoded : layout.candidate stream maxSize store place = .ok record)
include wellFormed small decoded

theorem WellFormed.sizeOf_eq_fixedSize {field : Field Int} (member : field ∈ layout.fields)
    (known : field.isReferenceSized = false) :
    record.sizeOf field = field.fixedSize := by
  obtain ⟨before, after, split⟩ := List.append_of_mem member
  obtain ⟨reached, cursor, reading, _, read, found, _⟩ :=
    wellFormed.candidate_reading small decoded split
  rw [Record.sizeOf, found]
  exact Field.extent_eq_fixedSize known (Field.reading_extent read)

/-- The fields that no reference sizes take up what the layout reckons with. -/
theorem WellFormed.candidate_fixedSize (exact : layout.fixedSize < 2 ^ 53) :
    record.bytesIn (layout.fields.filter fun field => !field.isReferenceSized) =
      layout.fixedSize := by
  rw [(fixedSize_eq_exactSum wellFormed.admissible exact).1]
  exact Record.bytesIn_known fun _ => wellFormed.sizeOf_eq_fixedSize small decoded

/-- The window looks back from the anchor to the signature of a record that reaches the anchor, if
the margin makes room for what is not known before decoding. -/
theorem WellFormed.start_le {anchor : Anchor Int} (hinted : layout.hint = some (.near anchor))
    (room : place + layout.signature.size ≤ stream.size) {margin : Int} (nonnegative : 0 ≤ margin)
    (reached : anchor.place stream.size ≤ record.stop)
    (fits : record.bytesIn (layout.fields.filter Field.isReferenceSized) +
      record.gap layout.fields ≤ margin) :
    Hint.start layout.hint stream.size (layout.window margin) ≤ place := by
  have start := (wellFormed.candidate_reads small decoded).1
  rw [start_eq small room] at start
  have parts := record.bytesIn_filter Field.isReferenceSized layout.fields
  have anchored := anchor.place_le stream.size
  rw [hinted]
  refine Hint.start_near_le (by omega)
    (le_window wellFormed.admissible nonnegative (by omega) ?_)
  by_cases exact : layout.fixedSize < 2 ^ 53
  · have known := wellFormed.candidate_fixedSize small decoded exact
    rw [Record.gap] at fits
    omega
  · omega

end Decoded

end Layout

namespace Pass

variable {pass : Pass} {offset place : Nat} {store last : Store} {event : Event}
  {events : List Event}

/-- Without a border in the signature a search meets every occurrence behind its start, and decodes
there what it would have decoded with its first store. -/
theorem Course.mem_iff (course : pass.Course offset store events last)
    (borderless : pass.signature.bytes.Borderless) :
    event ∈ events ↔ ∃ place, offset ≤ place ∧ pass.signature.bytes.OccursAt pass.stream place ∧
      pass.examine store place = .ok event := by
  have known (event : Event) (member : event ∈ events) : ∃ place, offset ≤ place ∧
      event.place = place ∧ pass.signature.bytes.OccursAt pass.stream place ∧
      pass.examine store place = .ok event := by
    obtain ⟨place, here, behind, occurs⟩ := course.occurs event member
    obtain ⟨hit, reached, _, examined, same⟩ := course.examined event member
    cases Int.ofNat_inj.mp (here.symm.trans (Event.place_of_examine examined))
    have sources : pass.layout.SameSources store reached := by
      intro field declared owner refers
      obtain ⟨_, _, _, elsewhere⟩ := refers
      exact (same owner elsewhere).symm
    exact ⟨place, behind, here, occurs, (examine_congr sources place).trans examined⟩
  constructor
  · intro member
    obtain ⟨place, behind, _, occurs, examined⟩ := known event member
    exact ⟨place, behind, occurs, examined⟩
  · intro occurrence
    obtain ⟨place, behind, occurs, examined⟩ := occurrence
    obtain ⟨other, member, lower, upper⟩ := course.covers behind occurs
    obtain ⟨hit, _, here, occursHit, examinedHit⟩ := known other member
    have met : hit = place := by
      rcases Nat.lt_or_eq_of_le (by omega : hit ≤ place) with inFront | met
      · have apart := borderless.apart occursHit occurs inFront
        have stride := other.stride_le pass.signature
        rw [Signature.size_bytes] at apart
        omega
      · exact met
    cases met
    cases examined.symm.trans examinedHit
    exact member

/-- A search without a hit inside a signature comes to every record behind its start. -/
theorem Course.finds (course : pass.Course offset store events last)
    (borderless : pass.signature.bytes.Borderless) (behind : offset ≤ place)
    (occurs : pass.signature.bytes.OccursAt pass.stream place) {record : Record}
    (decoded : pass.layout.candidate pass.stream pass.options.maxSize store place = .ok record) :
    .found record ∈ events :=
  (course.mem_iff borderless).mpr ⟨place, behind, occurs, examine_eq_found.mpr decoded⟩

/-- The window of a `near` hint is wide enough.  The fields that no reference sizes take up what the
plan has reckoned with, so a record that reaches the anchor is not in front of the start of the
search if its other fields and its gaps fit into the margin.  Without a border in its signature the
search finds it. -/
theorem run_finds_near_anchor {document : Document} {streamLength : Option Int} {plan : Plan}
    (compiled : Plan.ofDocument document streamLength = .ok plan) {layout : Layout}
    (declared : layout ∈ plan.layouts) {anchor : Anchor Int}
    (hinted : layout.hint = some (.near anchor)) {stream : Bytes} (small : stream.size < 2 ^ 53)
    {options : Options} (nonnegative : 0 ≤ options.nearMargin) {store : Store} {place : Nat}
    (occurs : layout.signature.OccursAt stream place) {record : Record}
    (decoded : layout.candidate stream options.maxSize store place = .ok record) :
    let known := record.bytesIn (layout.fields.filter fun field => !field.isReferenceSized)
    let supplied := record.bytesIn (layout.fields.filter Field.isReferenceSized)
    (layout.fixedSize < 2 ^ 53 → known = layout.fixedSize) ∧
    (anchor.place stream.size ≤ record.stop →
      supplied + record.gap layout.fields ≤ options.nearMargin →
      Hint.start layout.hint stream.size (layout.window options.nearMargin) ≤ place ∧
      (layout.signature.Borderless → ∃ pass, ofLayout layout stream options = .ok pass ∧
        ∀ threshold,
          let run := pass.run threshold none (pass.begin store)
          (run.fault = none ∧ run.search.offset = none) ∧ record ∈ run.records)) := by
  obtain ⟨earlier, wellFormed⟩ := (Plan.wellFormed_ofDocument compiled).layout declared
  have room := occurs.inside wellFormed.signature.1
  dsimp only
  refine ⟨wellFormed.candidate_fixedSize small decoded, fun reached fits => ?_⟩
  have start := wellFormed.start_le small decoded hinted room nonnegative reached fits
  refine ⟨start, fun borderless => ?_⟩
  obtain ⟨pass, made⟩ := ofLayout_exists stream options wellFormed
  refine ⟨pass, made, fun threshold => ?_⟩
  obtain ⟨fault, stopped, course, _⟩ :=
    run_course (ofLayout_faultless wellFormed small made) threshold store
  obtain ⟨rfl, signature, rfl, rfl⟩ := ofLayout_eq_ok made
  rw [← signature] at borderless occurs
  have found := course.finds borderless (Int.toNat_le.mpr start) occurs decoded
  exact ⟨⟨fault, stopped⟩, List.mem_filterMap.mpr ⟨_, found, rfl⟩⟩

/-- The note of the footer and its two gaps of one byte take up a margin of six, and the window then
begins at the footer. -/
theorem run_finds_footer :
    Plan.sampleFooter.fixedSize = 3 ∧
      Hint.start (some (.near .streamEnd)) 12 (Plan.sampleFooter.window 6) ≤ 1 ∧
      ∃ pass, ofLayout Plan.sampleFooter Layout.sampleStream ⟨6, maxSizeLimit, none⟩ = .ok pass ∧
        Layout.sampleRecord ∈ (pass.run .info none (pass.begin .empty)).records := by
  obtain ⟨known, window⟩ := run_finds_near_anchor Plan.ofDocument_sampleFooterDocument
    (.head _ : Plan.sampleFooter ∈ [Plan.sampleFooter]) (rfl : _ = some (Hint.near .streamEnd))
    (by decide : Layout.sampleStream.size < 2 ^ 53)
    (by decide : 0 ≤ (⟨6, maxSizeLimit, none⟩ : Options).nearMargin)
    (by decide : Plan.sampleFooter.signature.OccursAt Layout.sampleStream 1)
    Layout.candidate_sampleStream
  obtain ⟨start, finds⟩ := window (by decide) (by decide)
  obtain ⟨pass, made, runs⟩ := finds (by decide)
  exact ⟨(known (by decide)).symm, start, pass, made, (runs .info).2⟩

end Pass

end Carve
