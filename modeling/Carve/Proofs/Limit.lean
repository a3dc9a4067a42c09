import Carve.Proofs.Pass.Window

namespace Carve

namespace Field

variable {field : Field Int} {context : DecodeContext} {readings : Table Reading} {stream : Bytes}
  {cursor position count : Int}

theorem isReferenceSized_iff :
    field.isReferenceSized = true ↔
      ∃ reference, field.content.size? = some (.reference reference) := by
  unfold isReferenceSized
  split <;> simp_all

/-- A field with a size of its own is decoded alike under all limits. -/
theorem decode_unlimited (known : field.isReferenceSized = false) (limit : Int) :
    field.decode context readings stream cursor =
      field.decode { context with maxSize := limit } readings stream cursor := by
  unfold isReferenceSized Content.size? at known
  unfold decode
  cases content : field.content with
  | primitive type => rfl
  | buffer size | text size =>
      cases size with
      | literal count => rfl
      | reference reference => simp [content] at known

section Limit

variable {greater : Int} (ordered : context.maxSize ≤ greater)
include ordered

theorem extent_limited : field.extent context readings position = .ok count ↔
    field.extent { context with maxSize := greater } readings position = .ok count ∧
      (field.isReferenceSized = true → count ≤ context.maxSize) := by
  cases declared : field.content.size? with
  | none =>
      have known : field.isReferenceSized = false := by simp [isReferenceSized, declared]
      unfold extent
      cases content : field.content <;> simp_all [Content.size?]
  | some size =>
      rw [extent_eq_size declared, extent_eq_size declared, isReferenceSized_iff, declared]
      cases size with
      | literal count => simp [Field.size]
      | reference reference =>
          rw [size_reference_eq_ok, size_reference_eq_ok]
          simp only [DecodeContext.limit]
          constructor
          · rintro ⟨resolved, lower, upper⟩
            exact ⟨⟨resolved, lower, by omega⟩, fun _ => by omega⟩
          · rintro ⟨⟨resolved, lower, upper⟩, within⟩
            have bound := within ⟨reference, rfl⟩
            exact ⟨resolved, lower, by omega⟩

/-- A field is read under a limit just if it is read under a higher one, with a size within the
lower limit if the size comes from another field. -/
theorem Admissible.reading_limited (admissible : field.Admissible) (small : stream.size < 2 ^ 53)
    (nonnegative : 0 ≤ cursor) {result : Reading} :
    field.reading context readings stream cursor = .ok result ↔
      field.reading { context with maxSize := greater } readings stream cursor = .ok result ∧
        (field.isReferenceSized = true → result.size ≤ context.maxSize) := by
  rw [admissible.reading_eq_ok small nonnegative, admissible.reading_eq_ok small nonnegative,
    extent_limited ordered]
  constructor
  · rintro ⟨placed, ⟨sized, within⟩, enough, valued⟩
    exact ⟨⟨placed, sized, enough, valued⟩, within⟩
  · rintro ⟨⟨placed, sized, enough, valued⟩, within⟩
    exact ⟨placed, ⟨sized, within⟩, enough, valued⟩

end Limit

end Field

namespace Layout

variable {context : DecodeContext} {stream : Bytes} {fields : List (Field Int)}
  {readings last : Table Reading} {cursor stop : Int}

/-- The sizes of these fields that were taken from others are within a limit. -/
def SizesWithin (limit : Int) (fields : List (Field Int)) (readings : Table Reading) : Prop :=
  ∀ field ∈ fields, field.isReferenceSized = true →
    ∃ reading ∈ readings.find? field.name, reading.size ≤ limit

instance (limit : Int) (fields : List (Field Int)) (readings : Table Reading) :
    Decidable (SizesWithin limit fields readings) :=
  inferInstanceAs (Decidable (∀ field ∈ fields, field.isReferenceSized = true →
    ∃ reading ∈ readings.find? field.name, reading.size ≤ limit))

theorem readFields_limited {greater : Int} (ordered : context.maxSize ≤ greater)
    (small : stream.size < 2 ^ 53) (admissible : ∀ field ∈ fields, field.Admissible)
    (distinct : (fields.map Field.name).Nodup) (nonnegative : 0 ≤ cursor) :
    readFields context stream fields readings cursor = .ok (last, stop) ↔
      readFields { context with maxSize := greater } stream fields readings cursor =
        .ok (last, stop) ∧ SizesWithin context.maxSize fields last := by
  induction fields generalizing readings cursor with
  | nil => simp [readFields, SizesWithin]
  | cons field rest ih =>
      obtain ⟨valid, others⟩ := List.forall_mem_cons.mp admissible
      obtain ⟨fresh, distinctRest⟩ := List.nodup_cons.mp distinct
      have whole : (([] ++ field :: rest).map Field.name).Nodup := distinct
      have kept {context : DecodeContext} {reading : Reading}
          (more : readFields context stream rest (readings.insert field.name reading)
            reading.stop = .ok (last, stop)) : last.find? field.name = some reading :=
        (readFields_behind whole more).1
      simp only [readFields, Except.bind_eq_ok]
      constructor
      · rintro ⟨reading, head, more⟩
        obtain ⟨headAgain, within⟩ := (valid.reading_limited ordered small nonnegative).mp head
        obtain ⟨moreAgain, withinRest⟩ :=
          (ih others distinctRest (valid.stop_inside small nonnegative head).1).mp more
        exact ⟨⟨reading, headAgain, moreAgain⟩, List.forall_mem_cons.mpr
          ⟨fun supplied => ⟨reading, kept more, within supplied⟩, withinRest⟩⟩
      · rintro ⟨⟨reading, head, more⟩, within⟩
        obtain ⟨withinHead, withinRest⟩ := List.forall_mem_cons.mp within
        have headAgain := (valid.reading_limited ordered small nonnegative).mpr
          ⟨head, fun supplied => by
            obtain ⟨same, held, bound⟩ := withinHead supplied
            cases held.symm.trans (kept more)
            exact bound⟩
        exact ⟨reading, headAgain,
          (ih others distinctRest (valid.stop_inside small nonnegative headAgain).1).mpr
            ⟨more, withinRest⟩⟩

/-- The limit on the sizes that references supply does nothing but keep records out.  Under a lower
limit a candidate gives just the record that it gives under a higher one, if each size in it that
was taken from another field is within the lower limit.  A field with a size of its own is decoded
alike under all limits. -/
theorem candidate_filtered_by_limit {document : Document} {streamLength : Option Int} {plan : Plan}
    (compiled : Plan.ofDocument document streamLength = .ok plan) {layout : Layout}
    (declared : layout ∈ plan.layouts) (small : stream.size < 2 ^ 53) (store : Store) (place : Nat)
    {limit greater : Int} (ordered : limit ≤ greater) :
    (∀ record, layout.candidate stream limit store place = .ok record ↔
      layout.candidate stream greater store place = .ok record ∧
        SizesWithin limit layout.fields record.fields) ∧
    ∀ field ∈ layout.fields, field.isReferenceSized = false → ∀ readings cursor,
      field.decode (layout.context limit store) readings stream cursor =
        field.decode (layout.context greater store) readings stream cursor := by
  obtain ⟨earlier, wellFormed⟩ := (Plan.wellFormed_ofDocument compiled).layout declared
  refine ⟨fun record => ?_, fun field _ known readings cursor =>
    Field.decode_unlimited known greater⟩
  have start : 0 ≤ Number.add place layout.signature.size := Number.round_nonneg (by omega)
  have limited : readFields (layout.context limit store) stream layout.fields .empty
      (Number.add place layout.signature.size) = .ok (record.fields, record.stop) ↔ _ :=
    readFields_limited ordered small wellFormed.admissible wellFormed.distinct start
  rw [candidate_eq_ok small wellFormed.admissible, candidate_eq_ok small wellFormed.admissible,
    limited]
  exact and_right_comm

/-- The note of the footer has four bytes, as another field says. -/
theorem candidate_filtered_by_limit_sample :
    Plan.sampleFooter.candidate sampleStream 4 .empty (1 : Nat) = .ok sampleRecord ∧
      ∀ record, Plan.sampleFooter.candidate sampleStream 3 .empty (1 : Nat) ≠ .ok record := by
  have small : sampleStream.size < 2 ^ 53 := by decide
  have declared : Plan.sampleFooter ∈ [Plan.sampleFooter] := .head _
  have filtered {limit : Int} (ordered : limit ≤ maxSizeLimit) :=
    (candidate_filtered_by_limit Plan.ofDocument_sampleFooterDocument declared small .empty 1
      ordered).1
  refine ⟨(filtered (by decide) sampleRecord).mpr ⟨candidate_sampleStream, by decide⟩, ?_⟩
  intro record decoded
  obtain ⟨full, within⟩ := (filtered (by decide) record).mp decoded
  cases full.symm.trans candidate_sampleStream
  exact absurd within (by decide)

end Layout

end Carve
