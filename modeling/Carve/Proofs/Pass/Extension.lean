import Carve.Proofs.Embedding
import Carve.Proofs.Pass.Window
import Mathlib.Data.List.Sort

/-!
A pass over a stream and one over the same stream with more bytes behind it.

Without a border in the signature the events of a pass are the occurrences, one for one
(`Pass.Course.mem_iff`), so a candidate that becomes a record further back hides none behind it.
Every occurrence in the stream is one in the longer stream (`Bytes.OccursAt.append_iff`), and more
bytes cure a candidate only of the want of bytes (`Layout.WellFormed.candidate_append_refused`).
-/

namespace Carve

theorem Bytes.OccursAt.append_iff {pattern stream : Bytes} {place : Nat} (back : Bytes)
    (room : place + pattern.size ≤ stream.size) :
    pattern.OccursAt (stream ++ back) place ↔ pattern.OccursAt stream place := by
  have same (index : Nat) (inside : index < pattern.size) :
      (stream ++ back)[place + index]? = stream[place + index]? :=
    Array.getElem?_append_left (by omega)
  constructor
  · intro occurs index inside
    rw [← same index inside, occurs index inside]
  · intro occurs index inside
    rw [same index inside, occurs index inside]

theorem Record.moved_zero (record : Record) : record.moved 0 = record := by
  have fields : record.fields.map (Reading.moved 0) = record.fields := by
    apply Table.ext
    simp [Table.map, Reading.moved]
  simp [Record.moved, fields]

theorem DecodeError.Cause.not_isFinal {cause : DecodeError.Cause} (curable : ¬ cause.IsFinal) :
    cause.name = "UnexpectedEofError" ∨ cause.name = "OutOfBoundsError" := by
  cases cause with
  | unexpectedEnd needed available => exact .inl rfl
  | outOfBounds cursor => exact .inr rfl
  | invalidUtf8 | sizeOverflow _ _ | unresolved _ _ => exact absurd trivial curable

namespace Layout

variable {layout : Layout} {earlier : List Layout} {stream back : Bytes} {maxSize : Int}
  {store : Store} {place : Nat} (wellFormed : layout.WellFormed earlier)
  (small : (stream ++ back).size < 2 ^ 53)
include wellFormed small

theorem WellFormed.candidate_append {record : Record}
    (decoded : layout.candidate stream maxSize store place = .ok record) :
    layout.candidate (stream ++ back) maxSize store place = .ok record := by
  have smallBehind : (#[] ++ stream ++ back).size < 2 ^ 53 := by simpa using small
  have again := wellFormed.candidate_moved smallBehind (fun _ _ align _ => Int.dvd_zero align)
    (by simp) decoded
  simpa [Record.moved_zero] using again

theorem WellFormed.candidate_append_refused {error : DecodeError} (final : error.cause.IsFinal)
    (failed : layout.candidate stream maxSize store place = .error (.refused error)) :
    layout.candidate (stream ++ back) maxSize store place = .error (.refused error) := by
  have smallBehind : (#[] ++ stream ++ back).size < 2 ^ 53 := by simpa using small
  have again := wellFormed.candidate_refused smallBehind (fun _ _ align _ => Int.dvd_zero align)
    (by simp) final failed
  simpa [DecodeError.moved] using again

end Layout

namespace Pass

/-- The same search through a stream with more bytes behind it. -/
def extended (pass : Pass) (back : Bytes) : Pass := { pass with stream := pass.stream ++ back }

variable {pass : Pass} {offset : Nat} {store last otherLast : Store} {events others : List Event}
  {record : Record} {back : Bytes}

theorem ofLayout_extended {layout : Layout} {stream : Bytes} {options : Options}
    (made : ofLayout layout stream options = .ok pass) (back : Bytes) :
    ofLayout layout (stream ++ back) options = .ok (pass.extended back) := by
  unfold ofLayout at made ⊢
  split at made
  · contradiction
  · next signature compiled =>
      cases made
      rfl

theorem mem_records {run : Run} : record ∈ run.records ↔ .found record ∈ run.events.toList := by
  rw [Run.records, List.mem_filterMap]
  constructor
  · intro listed
    obtain ⟨event, member, same⟩ := listed
    cases event with
    | found found =>
        cases same
        exact member
    | rejected rejection => contradiction
  · intro member
    exact ⟨_, member, rfl⟩

theorem Course.records_ordered (course : pass.Course offset store events last) :
    (events.filterMap Event.record?).Pairwise fun (earlier later : Record) =>
      earlier.signatureOffset < later.signatureOffset := by
  rw [List.pairwise_filterMap]
  refine course.apart.imp fun {first second} gap record same other sameOther => ?_
  have forward := first.stride_pos pass.signature
  cases first <;> cases second <;> cases same <;> cases sameOther
  simp only [Event.place] at gap
  omega

section Extended

variable {earlier : List Layout} (wellFormed : pass.layout.WellFormed earlier)
  (small : (pass.stream ++ back).size < 2 ^ 53)
  (borderless : pass.signature.bytes.Borderless)
  (course : pass.Course offset store events last)
  (longer : (pass.extended back).Course offset store others otherLast)
include wellFormed small borderless course longer

theorem Course.found_extended (found : .found record ∈ events) : .found record ∈ others := by
  obtain ⟨place, behind, occurs, examined⟩ := (course.mem_iff borderless).mp found
  have room := occurs.inside (Nat.succ_pos _)
  refine (longer.mem_iff borderless).mpr ⟨place, behind, ?_, ?_⟩
  · exact (Bytes.OccursAt.append_iff back room).mpr occurs
  · exact examine_eq_found.mpr (wellFormed.candidate_append small (examine_eq_found.mp examined))

/-- A record of the longer stream whose signature lies in the stream itself was found there or
rejected for want of bytes. -/
theorem Course.found_before (faultless : pass.Faultless) (found : .found record ∈ others)
    (room : record.signatureOffset + pass.signature.size ≤ pass.stream.size) :
    .found record ∈ events ∨ ∃ rejection, .rejected rejection ∈ events ∧
      rejection.signatureOffset = record.signatureOffset ∧ ¬ rejection.error.cause.IsFinal := by
  obtain ⟨place, behind, occursLonger, decoded⟩ := (longer.mem_iff borderless).mp found
  have here := Event.place_of_examine decoded
  rw [examine_eq_found] at decoded
  have occurs : pass.signature.bytes.OccursAt pass.stream place := by
    refine (Bytes.OccursAt.append_iff back ?_).mp occursLonger
    rw [Signature.size_bytes]
    simp only [Event.place] at here
    omega
  obtain ⟨event, examined⟩ := faultless store place occurs
  have met : event ∈ events := (course.mem_iff borderless).mpr ⟨place, behind, occurs, examined⟩
  cases event with
  | found other =>
      have again := wellFormed.candidate_append small (examine_eq_found.mp examined)
      cases again.symm.trans decoded
      exact .inl met
  | rejected rejection =>
      obtain ⟨refused, _, there⟩ := examine_eq_rejected.mp examined
      refine .inr ⟨rejection, met, there.trans here.symm, fun final => ?_⟩
      have again := wellFormed.candidate_append_refused small final refused
      cases again.symm.trans decoded

end Extended

/-- More bytes behind a stream keep the records of a structure without a hint, in their order.  A
record that comes with them was rejected for want of bytes before, or its signature was not all
there.  The signature must not have a border; both runs may begin with any records of the structures
that are referred to. -/
theorem run_append {document : Document} {streamLength : Option Int} {plan : Plan}
    (compiled : Plan.ofDocument document streamLength = .ok plan) {layout : Layout}
    (declared : layout ∈ plan.layouts) (unhinted : layout.hint = none)
    (borderless : layout.signature.Borderless) {stream back : Bytes}
    (small : (stream ++ back).size < 2 ^ 53) (options : Options) (threshold : Log.Level)
    (store : Store) :
    ∃ pass longer, ofLayout layout stream options = .ok pass ∧
      ofLayout layout (stream ++ back) options = .ok longer ∧
      let run := pass.run threshold none (pass.begin store)
      let whole := longer.run threshold none (longer.begin store)
      (run.fault = none ∧ run.search.offset = none) ∧
      (whole.fault = none ∧ whole.search.offset = none) ∧
      run.records.Sublist whole.records ∧
      ∀ record ∈ whole.records, record ∉ run.records →
        (∃ rejection ∈ run.rejected, rejection.signatureOffset = record.signatureOffset ∧
          (rejection.error.cause.name = "UnexpectedEofError" ∨
            rejection.error.cause.name = "OutOfBoundsError")) ∨
        stream.size < record.signatureOffset + layout.signature.size := by
  obtain ⟨earlier, wellFormed⟩ := (Plan.wellFormed_ofDocument compiled).layout declared
  obtain ⟨pass, made⟩ := ofLayout_exists stream options wellFormed
  have madeLonger := ofLayout_extended made back
  have smallStream : stream.size < 2 ^ 53 := by
    rw [Array.size_append] at small
    omega
  have faultless := ofLayout_faultless wellFormed smallStream made
  have faultlessLonger := ofLayout_faultless wellFormed small madeLonger
  obtain ⟨fault, stopped, course, _⟩ := run_course faultless threshold store
  obtain ⟨faultLonger, stoppedLonger, longer, _⟩ := run_course faultlessLonger threshold store
  obtain ⟨rfl, signature, rfl, rfl⟩ := ofLayout_eq_ok made
  rw [← signature] at borderless ⊢
  have start : pass.start = 0 := by rw [Pass.start, unhinted]; rfl
  have startLonger : (pass.extended back).start = pass.start := by
    rw [start, Pass.start]
    simp only [extended, unhinted]
    rfl
  rw [startLonger] at longer
  refine ⟨pass, pass.extended back, made, madeLonger, ⟨fault, stopped⟩,
    ⟨faultLonger, stoppedLonger⟩, ?_, ?_⟩
  · have antisymmetric : Std.Antisymm fun (earlier later : Record) =>
        earlier.signatureOffset < later.signatureOffset := ⟨fun _ _ less more => by omega⟩
    have ordered := course.records_ordered
    have distinct : (pass.run threshold none (pass.begin store)).records.Nodup := by
      refine ordered.imp fun {first second} less same => ?_
      rw [same] at less
      exact Int.lt_irrefl _ less
    refine List.sublist_of_subperm_of_pairwise (List.subperm_of_subset distinct ?_) ordered
      longer.records_ordered
    intro record found
    exact mem_records.mpr
      (course.found_extended wellFormed small borderless longer (mem_records.mp found))
  · intro record found other
    by_cases room : record.signatureOffset + pass.signature.bytes.size ≤ pass.stream.size
    · rw [mem_records] at found other
      rcases course.found_before wellFormed small borderless longer faultless found room with
        again | ⟨rejection, rejected, there, curable⟩
      · exact absurd again other
      · exact .inl ⟨rejection, List.mem_filterMap.mpr ⟨_, rejected, rfl⟩, there,
          DecodeError.Cause.not_isFinal curable⟩
    · exact .inr (by omega)

/-- A text behind its length. -/
def sampleEntryDocument : Document where
  byteOrder := none
  constants := none
  structures :=
    [{ name := "entry", signature := .literal "0x6162", byteOrder := some .big, hint := none
       fields :=
         [{ name := "size", content := .primitive (.integer { signed := false, width := .one })
            align := none, offset := none },
          { name := "text", content := .buffer (.reference ⟨"size", none⟩)
            align := none, offset := none }] }]

def sampleEntry : Layout where
  name := "entry"
  signature := #[0x61, 0x62]
  byteOrder := .big
  hint := none
  fields :=
    [{ name := "size", content := .primitive (.integer { signed := false, width := .one })
       align := none, offset := none },
     { name := "text", content := .buffer (.reference ⟨"size", none⟩)
       align := none, offset := none }]

/-- Two more bytes complete an entry that lacked one, and a signature of which the first byte was
there; the entry in front of them is kept. -/
theorem run_append_sample :
    let stream : Bytes := #[0x61, 0x62, 1, 7, 0x61, 0x62, 3, 8, 0x61]
    sampleEntry.signature.Borderless ∧
      ∃ pass longer, ofLayout sampleEntry stream .default = .ok pass ∧
        ofLayout sampleEntry (stream ++ #[0x62, 0]) .default = .ok longer ∧
        let run := pass.run .info none (pass.begin .empty)
        let whole := longer.run .info none (longer.begin .empty)
        run.records.Sublist whole.records ∧
        ∀ record ∈ whole.records, record ∉ run.records →
          (∃ rejection ∈ run.rejected, rejection.signatureOffset = record.signatureOffset ∧
            (rejection.error.cause.name = "UnexpectedEofError" ∨
              rejection.error.cause.name = "OutOfBoundsError")) ∨
          9 < record.signatureOffset + 2 := by
  intro stream
  have compiled : Plan.ofDocument sampleEntryDocument none = .ok ⟨.little, [sampleEntry]⟩ := rfl
  have borderless : sampleEntry.signature.Borderless := by decide
  obtain ⟨pass, longer, made, madeLonger, _, _, kept, others⟩ :=
    run_append compiled (by simp : sampleEntry ∈ _) rfl borderless
      (by decide : (stream ++ #[0x62, 0]).size < 2 ^ 53) .default .info .empty
  exact ⟨borderless, pass, longer, made, madeLonger, kept, others⟩

end Pass

end Carve
