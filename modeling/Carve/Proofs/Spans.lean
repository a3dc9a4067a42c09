import Carve.Proofs.Candidate
import Carve.Proofs.Field.Position
import Carve.Proofs.Occurrence
import Carve.Proofs.Plan.Compiled

namespace Carve

namespace Record

/-- The values of the fields with their spans, in the order of the record. -/
def readings (record : Record) : List Reading := record.fields.entries.map Prod.snd

/-- A record stands in a stream as its layout says. -/
structure Anchored (record : Record) (layout : Layout) (stream : Bytes) : Prop where
  /-- The bytes in front of the fields are the signature. -/
  signature : ∃ place : Nat, record.signatureOffset = place ∧
    record.start = (place + layout.signature.size : Nat) ∧
    stream.extract place (place + layout.signature.size) = layout.signature
  names : record.fields.names = layout.fields.map Field.name
  inside : ∀ reading ∈ record.readings, reading.Inside stream.size
  /-- The record ends with its last field, or where it starts if it has none. -/
  stop : record.stop = (record.readings.getLast?.map fun reading =>
    reading.offset + reading.size).getD record.start
  stopInside : 0 ≤ record.stop ∧ record.stop ≤ stream.size

/-- The spans follow one another from the start of the record to its end. -/
structure InOrder (record : Record) : Prop where
  apart : record.readings.Pairwise fun (earlier later : Reading) =>
    earlier.offset + earlier.size ≤ later.offset
  within : ∀ reading ∈ record.readings,
    record.start ≤ reading.offset ∧ reading.offset + reading.size ≤ record.stop

end Record

namespace Field

variable {field : Field Int} {length : Nat} {cursor shifted position : Int}

theorem le_shift (small : length < 2 ^ 53) (forward : ∀ offset ∈ field.offset, 0 ≤ offset)
    (inside : 0 ≤ cursor ∧ cursor ≤ length) (moved : field.shift cursor length = .ok shifted) :
    cursor ≤ shifted ∧ shifted ≤ length := by
  unfold shift at moved
  split at moved
  · cases moved
    omega
  · next offset present =>
      have ahead := forward offset present
      have reached : cursor ≤ Number.add cursor offset :=
        Number.le_add (by omega) (by omega) (by omega)
      dsimp only at moved
      split at moved
      · contradiction
      · cases moved
        omega

theorem Admissible.le_alignUp (admissible : field.Admissible) (small : length < 2 ^ 53)
    (inside : 0 ≤ shifted ∧ shifted ≤ length)
    (aligned : field.alignUp cursor length shifted = .ok position) : shifted ≤ position := by
  obtain ⟨place, least⟩ :=
    placesFrom_least (fun align present => (admissible.boundary align present).1) shifted
  rw [alignUp_exact admissible.boundary inside.1 inside.2 (by omega) least] at aligned
  split at aligned
  · cases aligned
    exact least.1.1
  · contradiction

/-- An offset that does not lead back moves the cursor on. -/
theorem Admissible.le_position (admissible : field.Admissible) (small : length < 2 ^ 53)
    (forward : ∀ offset ∈ field.offset, 0 ≤ offset) (inside : 0 ≤ cursor ∧ cursor ≤ length)
    (placed : field.position cursor length = .ok position) : cursor ≤ position := by
  unfold Field.position at placed
  split at placed
  · contradiction
  · next shifted moved =>
      obtain ⟨behind, room⟩ := le_shift small forward inside moved
      exact Int.le_trans behind
        (admissible.le_alignUp small ⟨Int.le_trans inside.1 behind, room⟩ placed)

end Field

namespace Layout

/-- What fields are read as, the first one from a cursor and each of the others from where the one
in front of it stops. -/
inductive Reads (context : DecodeContext) (stream : Bytes) :
    List (Field Int) → Table Reading → Int → List Reading → Int → Prop
  | nil {front : Table Reading} {cursor : Int} : Reads context stream [] front cursor [] cursor
  | cons {field : Field Int} {rest : List (Field Int)} {front : Table Reading} {cursor stop : Int}
      {reading : Reading} {readings : List Reading}
      (head : field.reading context front stream cursor = .ok reading)
      (tail : Reads context stream rest (front.insert field.name reading) reading.stop readings
        stop) :
      Reads context stream (field :: rest) front cursor (reading :: readings) stop

variable {context : DecodeContext} {stream : Bytes} {fields : List (Field Int)}
  {front last : Table Reading} {cursor stop : Int} {readings : List Reading}

theorem Reads.length_eq (reads : Reads context stream fields front cursor readings stop) :
    readings.length = fields.length := by
  induction reads with
  | nil => rfl
  | cons head tail ih => rw [List.length_cons, List.length_cons, ih]

theorem readFields_reads (distinct : (front.names ++ fields.map Field.name).Nodup)
    (read : readFields context stream fields front cursor = .ok (last, stop)) :
    ∃ readings, Reads context stream fields front cursor readings stop ∧
      last.entries = front.entries ++ (fields.map Field.name).zip readings := by
  induction fields generalizing front cursor with
  | nil =>
      cases read
      exact ⟨[], .nil, by simp⟩
  | cons field rest ih =>
      obtain ⟨reading, head, more⟩ := Except.bind_eq_ok.mp read
      have fresh : field.name ∉ front.names := by
        intro again
        exact (List.nodup_append.mp distinct).2.2 _ again _ (by simp) rfl
      have distinctRest :
          ((front.insert field.name reading).names ++ rest.map Field.name).Nodup := by
        rw [Table.names_insert, if_neg fresh, List.append_assoc]
        exact distinct
      obtain ⟨readings, tail, entries⟩ := ih distinctRest more
      refine ⟨reading :: readings, .cons head tail, ?_⟩
      rw [entries, Table.entries_insert _ _ fresh, List.append_assoc]
      rfl

section Inside

variable (small : stream.size < 2 ^ 53) (admissible : ∀ field ∈ fields, field.Admissible)
include small admissible

theorem Reads.inside (reads : Reads context stream fields front cursor readings stop)
    (nonnegative : 0 ≤ cursor) : ∀ reading ∈ readings, reading.Inside stream.size := by
  induction reads with
  | nil => simp
  | cons head tail ih =>
      obtain ⟨valid, others⟩ := List.forall_mem_cons.mp admissible
      intro reading member
      rcases List.mem_cons.mp member with rfl | later
      · exact valid.reading_inside small nonnegative head
      · exact ih others (valid.stop_inside small nonnegative head).1 reading later

theorem Reads.stop_eq (reads : Reads context stream fields front cursor readings stop)
    (nonnegative : 0 ≤ cursor) :
    stop = (readings.getLast?.map fun reading => reading.offset + reading.size).getD cursor := by
  induction reads with
  | nil => rfl
  | @cons field rest front cursor stop reading readings head tail ih =>
      obtain ⟨valid, others⟩ := List.forall_mem_cons.mp admissible
      have within := valid.reading_inside small nonnegative head
      rw [ih others (valid.stop_inside small nonnegative head).1, List.getLast?_cons,
        within.stop_eq small]
      cases readings.getLast? <;> rfl

variable (forward : ∀ field ∈ fields, ∀ offset ∈ field.offset, 0 ≤ offset)
include forward

theorem Reads.between (reads : Reads context stream fields front cursor readings stop)
    (inside : 0 ≤ cursor ∧ cursor ≤ stream.size) :
    cursor ≤ stop ∧ ∀ reading ∈ readings,
      cursor ≤ reading.offset ∧ reading.offset + reading.size ≤ stop := by
  induction reads with
  | nil => simp
  | @cons field rest front cursor stop reading readings head tail ih =>
      obtain ⟨valid, others⟩ := List.forall_mem_cons.mp admissible
      obtain ⟨ahead, aheadRest⟩ := List.forall_mem_cons.mp forward
      obtain ⟨placed, _⟩ := (valid.reading_eq_ok small inside.1).mp head
      have behind := valid.le_position small ahead inside placed
      have within := valid.reading_inside small inside.1 head
      have stopEq := within.stop_eq small
      obtain ⟨_, positive, _⟩ := within
      obtain ⟨reached, rest⟩ := ih others aheadRest (valid.stop_inside small inside.1 head)
      refine ⟨by omega, fun other member => ?_⟩
      rcases List.mem_cons.mp member with rfl | later
      · omega
      · have bounds := rest other later
        omega

theorem Reads.apart (reads : Reads context stream fields front cursor readings stop)
    (inside : 0 ≤ cursor ∧ cursor ≤ stream.size) :
    readings.Pairwise fun (earlier later : Reading) =>
      earlier.offset + earlier.size ≤ later.offset := by
  induction reads with
  | nil => exact .nil
  | cons head tail ih =>
      obtain ⟨valid, others⟩ := List.forall_mem_cons.mp admissible
      obtain ⟨_, aheadRest⟩ := List.forall_mem_cons.mp forward
      have stopEq := (valid.reading_inside small inside.1 head).stop_eq small
      have reached := valid.stop_inside small inside.1 head
      refine .cons (fun later member => ?_) (ih others aheadRest reached)
      rw [← stopEq]
      exact ((tail.between small others aheadRest reached).2 later member).1

end Inside

variable {layout : Layout} {earlier : List Layout} {maxSize : Int} {store : Store} {place : Nat}
  {record : Record}

theorem WellFormed.candidate_reads (wellFormed : layout.WellFormed earlier)
    (small : stream.size < 2 ^ 53)
    (decoded : layout.candidate stream maxSize store place = .ok record) :
    record.start = Number.add place layout.signature.size ∧
      record.fields.names = layout.fields.map Field.name ∧
      Reads (layout.context maxSize store) stream layout.fields .empty record.start record.readings
        record.stop := by
  rw [candidate_eq_readFields small wellFormed.admissible] at decoded
  split at decoded
  · contradiction
  · next fields stop read =>
      cases decoded
      have distinct : ((Table.empty : Table Reading).names ++ layout.fields.map Field.name).Nodup :=
        wellFormed.distinct
      obtain ⟨readings, reads, entries⟩ := readFields_reads distinct read
      have lengths := reads.length_eq
      have names : fields.names = layout.fields.map Field.name := by
        rw [Table.names, entries]
        exact List.map_fst_zip (by simp [lengths])
      have spans : fields.entries.map Prod.snd = readings := by
        rw [entries]
        exact List.map_snd_zip (by simp [lengths])
      refine ⟨rfl, names, ?_⟩
      rw [Record.readings, spans]
      exact reads

theorem WellFormed.candidate_anchored (wellFormed : layout.WellFormed earlier)
    (small : stream.size < 2 ^ 53) (occurs : layout.signature.OccursAt stream place)
    (decoded : layout.candidate stream maxSize store place = .ok record) :
    record.Anchored layout stream := by
  have room := occurs.inside wellFormed.signature.1
  obtain ⟨start, names, reads⟩ := wellFormed.candidate_reads small decoded
  rw [start_eq small room] at start
  have nonnegative : 0 ≤ record.start := by omega
  have within := reads.inside small wellFormed.admissible nonnegative
  have stop := reads.stop_eq small wellFormed.admissible nonnegative
  exact {
    signature :=
      ⟨place, (candidate_head decoded).2, start, occurs.extract_eq wellFormed.signature.1⟩
    names
    inside := within
    stop
    stopInside := by
      rw [stop]
      cases final : record.readings.getLast? with
      | none => exact ⟨nonnegative, by simp only [Option.map_none, Option.getD_none]; omega⟩
      | some reading =>
          obtain ⟨_, _, _⟩ := within reading (List.mem_of_getLast? final)
          simp only [Option.map_some, Option.getD_some]
          omega }

theorem WellFormed.candidate_inOrder (wellFormed : layout.WellFormed earlier)
    (small : stream.size < 2 ^ 53) (room : place + layout.signature.size ≤ stream.size)
    (forward : ∀ field ∈ layout.fields, ∀ offset ∈ field.offset, 0 ≤ offset)
    (decoded : layout.candidate stream maxSize store place = .ok record) : record.InOrder := by
  obtain ⟨start, _, reads⟩ := wellFormed.candidate_reads small decoded
  rw [start_eq small room] at start
  have inside : 0 ≤ record.start ∧ record.start ≤ stream.size := by omega
  exact {
    apart := reads.apart small wellFormed.admissible forward inside
    within := (reads.between small wellFormed.admissible forward inside).2 }

/-- A footer behind one other byte.  Its shift is padded to an even place, and its note begins with
a byte-order mark. -/
def sampleStream : Bytes := #[0, 0x46, 0x4f, 0, 0xff, 0xfe, 4, 0, 0xef, 0xbb, 0xbf, 0x41]

def sampleRecord : Record where
  structureName := "footer"
  signatureOffset := 1
  start := 3
  stop := 12
  fields := .ofList
    [("shift", { value := .int 16 (-2), offset := 4, size := 2 }),
      ("size", { value := .uint 8 4, offset := 6, size := 1 }),
      ("note", { value := .utf8 "\uFEFFA", offset := 8, size := 4 })]

theorem candidate_sampleStream :
    Plan.sampleFooter.candidate sampleStream maxSizeLimit .empty (1 : Nat) = .ok sampleRecord := by
  decide +kernel

end Layout

end Carve
