import Carve.Proofs.Sources
import Carve.Proofs.Spans

/-!
What a record is read from.

A field is placed and sized before any of its own bytes is looked at, so another stream of the same
length that agrees on its span leads to the same span and the same bytes
(`Field.Admissible.reading_framed`).  Field by field, a record comes out again of every stream that
agrees on its spans (`Layout.readFields_framed`), with every store that agrees on the records that
its sizes refer to (`Layout.candidate_framed`).
-/

namespace Carve

/-- The byte is one of those that a reading was taken from. -/
def Reading.Covers (reading : Reading) (index : Nat) : Prop :=
  reading.offset ≤ index ∧ (index : Int) < reading.offset + reading.size

theorem Bytes.extract_congr {stream other : Bytes} {start stop : Nat}
    (size : other.size = stream.size)
    (same : ∀ index, start ≤ index → index < stop → other[index]? = stream[index]?) :
    other.extract start stop = stream.extract start stop := by
  apply Array.ext_getElem?
  intro index
  rw [Array.getElem?_extract, Array.getElem?_extract, size]
  split
  · exact same _ (Nat.le_add_right _ _) (by omega)
  · rfl

/-- A field is read alike of all streams of one length with the same bytes in its span. -/
theorem Field.Admissible.reading_framed {field : Field Int} {context : DecodeContext}
    {front : Table Reading} {stream other : Bytes} {cursor : Int} {result : Reading}
    (admissible : field.Admissible) (small : stream.size < 2 ^ 53) (nonnegative : 0 ≤ cursor)
    (size : other.size = stream.size)
    (read : field.reading context front stream cursor = .ok result)
    (same : ∀ index, result.Covers index → other[index]? = stream[index]?) :
    field.reading context front other cursor = .ok result := by
  obtain ⟨placed, sized, enough, valued⟩ := (admissible.reading_eq_ok small nonnegative).mp read
  obtain ⟨lower, positive, _⟩ := admissible.reading_inside small nonnegative read
  have bytes : other.extract result.offset.toNat (result.offset + result.size).toNat =
      stream.extract result.offset.toNat (result.offset + result.size).toNat :=
    Bytes.extract_congr size fun index behind before => same index ⟨by omega, by omega⟩
  rw [← size] at placed enough small
  rw [← bytes] at valued
  exact (admissible.reading_eq_ok small nonnegative).mpr ⟨placed, sized, enough, valued⟩

namespace Layout

variable {context : DecodeContext} {stream other : Bytes} {fields : List (Field Int)}
  {front last : Table Reading} {cursor stop : Int}

theorem readFields_framed (small : stream.size < 2 ^ 53) (size : other.size = stream.size)
    (admissible : ∀ field ∈ fields, field.Admissible) (distinct : (fields.map Field.name).Nodup)
    (nonnegative : 0 ≤ cursor)
    (read : readFields context stream fields front cursor = .ok (last, stop))
    (same : ∀ name reading, last.find? name = some reading →
      ∀ index, reading.Covers index → other[index]? = stream[index]?) :
    readFields context other fields front cursor = .ok (last, stop) := by
  induction fields generalizing front cursor with
  | nil => exact read
  | cons field rest ih =>
      obtain ⟨valid, others⟩ := List.forall_mem_cons.mp admissible
      obtain ⟨reading, head, more⟩ := Except.bind_eq_ok.mp read
      have whole : (([] ++ field :: rest).map Field.name).Nodup := distinct
      have kept : last.find? field.name = some reading := (readFields_behind whole more).1
      have again := valid.reading_framed small nonnegative size head (same field.name reading kept)
      exact Except.bind_eq_ok.mpr ⟨reading, again, ih others (List.nodup_cons.mp distinct).2
        (valid.stop_inside small nonnegative head).1 more⟩

variable {layout : Layout} {earlier : List Layout} {maxSize : Int} {store : Store}
  {place : Nat} {record : Record}

theorem WellFormed.candidate_framed_stream (wellFormed : layout.WellFormed earlier)
    (small : stream.size < 2 ^ 53) (size : other.size = stream.size)
    (decoded : layout.candidate stream maxSize store place = .ok record)
    (same : ∀ reading ∈ record.readings, ∀ index, reading.Covers index →
      other[index]? = stream[index]?) :
    layout.candidate other maxSize store place = .ok record := by
  obtain ⟨read, head⟩ := (candidate_eq_ok small wellFormed.admissible).mp decoded
  have start : 0 ≤ Number.add place layout.signature.size := Number.round_nonneg (by omega)
  have again := readFields_framed small size wellFormed.admissible wellFormed.distinct start read
    fun name reading found => same reading (List.mem_map_of_mem (mem_of_lookup found))
  exact (candidate_eq_ok (size ▸ small) wellFormed.admissible).mpr ⟨again, head⟩

theorem SameSources.commitAll {records : List Record}
    (apart : ∀ committed ∈ records, committed.structureName = layout.name ∨
      ∀ field ∈ layout.fields, ¬ field.RefersTo layout.name committed.structureName) :
    layout.SameSources store (store.commitAll records) := by
  intro field member owner refers
  have elsewhere : ∀ committed ∈ records, owner ≠ committed.structureName := by
    rintro committed present rfl
    obtain ⟨_, _, _, foreign⟩ := id refers
    rcases apart committed present with own | unreferenced
    · exact foreign own
    · exact unreferenced field member refers
  rw [Store.latestOf, Store.latestOf, store.find?_commitAll_elsewhere elsewhere]

/-- A record depends on the bytes of its spans and on the latest records of the other structures
that its sizes refer to, and on nothing else.  So neither bytes outside the spans nor records of the
structure itself or of one that it does not refer to can change it. -/
theorem candidate_framed {document : Document} {streamLength : Option Int} {plan : Plan}
    (compiled : Plan.ofDocument document streamLength = .ok plan) (declared : layout ∈ plan.layouts)
    (small : stream.size < 2 ^ 53)
    (decoded : layout.candidate stream maxSize store place = .ok record) :
    (∀ other otherStore, other.size = stream.size →
      (∀ reading ∈ record.readings, ∀ index, reading.Covers index →
        other[index]? = stream[index]?) →
      layout.SameSources store otherStore →
        layout.candidate other maxSize otherStore place = .ok record) ∧
    (∀ index byte, (∀ reading ∈ record.readings, ¬ reading.Covers index) →
      layout.candidate (stream.setIfInBounds index byte) maxSize store place = .ok record) ∧
    ∀ records, (∀ committed ∈ records, committed.structureName = layout.name ∨
        ∀ field ∈ layout.fields, ¬ field.RefersTo layout.name committed.structureName) →
      layout.candidate stream maxSize (store.commitAll records) place = .ok record := by
  obtain ⟨earlier, wellFormed⟩ := (Plan.wellFormed_ofDocument compiled).layout declared
  refine ⟨fun other otherStore size same sources => ?_, fun index byte outside => ?_,
    fun records apart => ?_⟩
  · rw [← sources.candidate]
    exact wellFormed.candidate_framed_stream small size decoded same
  · refine wellFormed.candidate_framed_stream small Array.size_setIfInBounds decoded ?_
    intro reading member covered covers
    rw [Array.getElem?_setIfInBounds_ne]
    rintro rfl
    exact outside reading member covers
  · rw [← (SameSources.commitAll apart).candidate]
    exact decoded

/-- A block that says how long a note is, and a note behind its signature and three other bytes. -/
def sampleBlocks : Store := .ofRecords
  [{ structureName := "block", signatureOffset := 0, start := 2, stop := 3
     fields := .ofList [("size", { value := .uint 8 2, offset := 2, size := 1 })] }]

def sampleNoteRecord : Record where
  structureName := "note"
  signatureOffset := 0
  start := 1
  stop := 6
  fields := .ofList [("text", { value := .utf8 "xy", offset := 4, size := 2 })]

theorem sampleNoteRecord_spans {reading : Reading} (member : reading ∈ sampleNoteRecord.readings)
    {index : Nat} (covers : reading.Covers index) : index = 4 ∨ index = 5 := by
  have readings : sampleNoteRecord.readings =
      [{ value := .utf8 "xy", offset := 4, size := 2 }] := by decide
  rw [readings, List.mem_singleton] at member
  subst member
  have lower : (4 : Int) ≤ index := covers.1
  have upper : (index : Int) < 4 + 2 := covers.2
  omega

/-- The note is the same among other bytes, with another last byte, and after notes and tails have
been committed. -/
theorem candidate_framed_sample :
    Plan.sampleNote.candidate #[9, 9, 9, 9, 0x78, 0x79, 9] maxSizeLimit
        (sampleBlocks.commit sampleNoteRecord) (0 : Nat) = .ok sampleNoteRecord ∧
      Plan.sampleNote.candidate (#[0x62, 0, 0, 0, 0x78, 0x79, 0].setIfInBounds 6 9) maxSizeLimit
        sampleBlocks (0 : Nat) = .ok sampleNoteRecord ∧
      Plan.sampleNote.candidate #[0x62, 0, 0, 0, 0x78, 0x79, 0] maxSizeLimit
        (sampleBlocks.commitAll
          [sampleNoteRecord, { sampleNoteRecord with structureName := "tail" }]) (0 : Nat) =
        .ok sampleNoteRecord := by
  have decoded : Plan.sampleNote.candidate #[0x62, 0, 0, 0, 0x78, 0x79, 0] maxSizeLimit sampleBlocks
      (0 : Nat) = .ok sampleNoteRecord := by decide +kernel
  have declared : Plan.sampleNote ∈ [Plan.sampleBlock, Plan.sampleNote] := .tail _ (.head _)
  obtain ⟨other, outside, committed⟩ :=
    candidate_framed Plan.ofDocument_sampleDocument declared (by decide) decoded
  refine ⟨other _ _ rfl ?_ ((SameSources.refl _ _).commit rfl).symm, outside 6 9 ?_, committed _ ?_⟩
  · intro reading member index covers
    rcases sampleNoteRecord_spans member covers with rfl | rfl <;> rfl
  · intro reading member covers
    rcases sampleNoteRecord_spans member covers with six | six <;> contradiction
  · refine List.forall_mem_cons.mpr ⟨.inl rfl, List.forall_mem_singleton.mpr (.inr ?_)⟩
    rintro field member ⟨reference, sized, owned, _⟩
    rw [List.mem_singleton.mp member] at sized
    cases sized
    contradiction

end Layout

end Carve
