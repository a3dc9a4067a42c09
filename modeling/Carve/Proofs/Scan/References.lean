import Carve.Proofs.Reference
import Carve.Proofs.Scan.Course

namespace Carve

namespace Scanned

variable {stream : Bytes} {options : Options} {layouts : List Layout} {store last : Store}
  {scans : List StructureScan} {layout : Layout} {scan : StructureScan} {index : Nat}

theorem conforms (scanned : Scanned stream options layouts store scans last)
    (wellFormed : EachAfter Layout.WellFormed layouts) (small : stream.size < 2 ^ 53)
    (declared : layouts[index]? = some layout) (given : scans[index]? = some scan) :
    ∀ record ∈ scan.records, record.fields.Conforms layout.fields := by
  obtain ⟨middle, pass, events, after, _, made, course, rfl⟩ := scanned.pass_at declared given
  have valid := wellFormed.at_index declared
  obtain ⟨rfl, signature, rfl, rfl⟩ := Pass.ofLayout_eq_ok made
  intro record member
  obtain ⟨place, reached, occurs, examined, _⟩ :=
    course.examined _ (StructureScan.mem_records.mp member)
  rw [signature] at occurs
  exact valid.candidate_conforms small (occurs.inside valid.signature.1)
    (Pass.examine_eq_found.mp examined)

theorem ahead (scanned : Scanned stream options layouts store scans last)
    (front : layout ∈ layouts.take index) :
    ∃ place scan, place < index ∧ layouts[place]? = some layout ∧ scans[place]? = some scan := by
  obtain ⟨place, inside, rfl⟩ := List.mem_take_iff_getElem.mp front
  have lengths := scanned.length_eq
  have present : place < scans.length := by omega
  exact ⟨place, scans[place], by omega, List.getElem?_eq_getElem _,
    List.getElem?_eq_getElem present⟩

/-- Every candidate of a structure is examined with a store that holds the last record of each
structure in front of it. -/
theorem candidates (scanned : Scanned stream options layouts .empty scans last)
    (wellFormed : EachAfter Layout.WellFormed layouts)
    (declared : layouts[index]? = some layout) (given : scans[index]? = some scan) :
    ∃ pass events, Pass.ofLayout layout stream options = .ok pass ∧
      scan = .ofEvents layout.name events ∧
      ∀ event ∈ events, ∃ place reached, layout.signature.OccursAt stream place ∧
        pass.examine reached place = .ok event ∧
        ∀ (front : Nat) (source : Layout) (earlier : StructureScan), front < index →
          layouts[front]? = some source → scans[front]? = some earlier →
          reached.latestOf source.name = earlier.records.getLast? := by
  have distinct := Layout.names_distinct wellFormed
  have fresh := (wellFormed.at_index declared).fresh
  obtain ⟨middle, pass, events, after, made, course, same, latest⟩ :=
    scanned.before_pass distinct declared given
  obtain ⟨rfl, signature, rfl, _⟩ := Pass.ofLayout_eq_ok made
  refine ⟨pass, events, made, same, fun event member => ?_⟩
  obtain ⟨place, reached, occurs, examined, kept⟩ := course.examined event member
  refine ⟨place, reached, signature ▸ occurs, examined, ?_⟩
  intro front source earlier before sourceDeclared earlierGiven
  have other : source ∈ layouts.take index :=
    List.mem_of_getElem? (i := front) (by rwa [List.getElem?_take_of_lt before])
  rw [kept source.name (fresh source other)]
  exact latest front source earlier before sourceDeclared earlierGiven

end Scanned

namespace Plan

/-- A candidate refused for a reference names a structure in front of its own that has no record,
and a structure that takes a size from one without a record has none either. -/
theorem scan_references {document : Document} {streamLength : Option Int} {plan : Plan}
    (compiled : ofDocument document streamLength = .ok plan) {stream : Bytes}
    (small : stream.size < 2 ^ 53) (options : Options) (session : Session)
    (quiet : options.stopsAfter (plan.scan session stream options).log = false) :
    ∃ scans, (plan.scan session stream options).outcome = .ok scans ∧
      scans.map StructureScan.structureName = plan.layouts.map Layout.name ∧
      ∀ (index : Nat) (layout : Layout) (scan : StructureScan),
        plan.layouts[index]? = some layout → scans[index]? = some scan →
        (∀ rejection ∈ scan.rejected, ∀ reference reason,
          rejection.error.cause = .unresolved reference reason →
          ∃ (front : Nat) (source : Layout) (earlier : StructureScan), front < index ∧
            plan.layouts[front]? = some source ∧ scans[front]? = some earlier ∧
            reference.owner = some source.name ∧ source.name ≠ layout.name ∧
            earlier.records = [] ∧ reason = .noRecord source.name) ∧
        ∀ field ∈ layout.fields, ∀ reference,
          field.content.size? = some (.reference reference) →
          ∀ (front : Nat) (source : Layout) (earlier : StructureScan), front < index →
            plan.layouts[front]? = some source → scans[front]? = some earlier →
            reference.owner = some source.name → earlier.records = [] → scan.records = [] := by
  have wellFormed := wellFormed_ofDocument compiled
  obtain ⟨scans, last, outcome, scanned⟩ := scan_course wellFormed small quiet
  refine ⟨scans, outcome, scanned.names, fun index layout scan declared given => ?_⟩
  have valid := wellFormed.at_index declared
  obtain ⟨pass, events, made, rfl, candidates⟩ := scanned.candidates wellFormed declared given
  obtain ⟨rfl, _, rfl, rfl⟩ := Pass.ofLayout_eq_ok made
  constructor
  · intro rejection member reference reason cause
    obtain ⟨event, present, same⟩ := List.mem_filterMap.mp member
    cases event with
    | found record => contradiction
    | rejected other =>
        cases same
        obtain ⟨place, reached, occurs, examined, latest⟩ := candidates _ present
        have kept : reached.Conforms (plan.layouts.take index) := by
          intro source inFront record recorded
          obtain ⟨front, earlier, before, there, result⟩ := scanned.ahead inFront
          rw [latest front source earlier before there result] at recorded
          exact scanned.conforms wellFormed small there result record
            (List.mem_of_getLast? recorded)
        obtain ⟨refused, _⟩ := Pass.examine_eq_rejected.mp examined
        obtain ⟨source, inFront, owned, foreign, missing, reasonEq⟩ :=
          valid.candidate_unresolved small kept (occurs.inside valid.signature.1) refused cause
        obtain ⟨front, earlier, before, there, result⟩ := scanned.ahead inFront
        rw [latest front source earlier before there result] at missing
        exact ⟨front, source, earlier, before, there, result, owned, foreign,
          List.getLast?_eq_none_iff.mp missing, reasonEq⟩
  · intro field member reference sized front source earlier before there result owned nothing
    refine List.eq_nil_iff_forall_not_mem.mpr fun record recorded => ?_
    obtain ⟨event, present, same⟩ := List.mem_filterMap.mp recorded
    cases event with
    | rejected rejection => contradiction
    | found found =>
        cases same
        obtain ⟨place, reached, occurs, examined, latest⟩ := candidates _ present
        have missing : reached.latestOf source.name = none := by
          rw [latest front source earlier before there result, nothing]
          rfl
        have foreign : source.name ≠ pass.layout.name := by
          refine valid.fresh source (List.mem_of_getElem? (i := front) ?_)
          rwa [List.getElem?_take_of_lt before]
        exact valid.candidate_of_missing small (occurs.inside valid.signature.1) member sized owned
          foreign missing record (Pass.examine_eq_found.mp examined)

/-- A note takes its size from the last block, so there is none without a block. -/
theorem scan_references_of_sample :
    ∃ scans, (Plan.scan ⟨.info, ⟨0⟩⟩ ⟨.big, [sampleBlock, sampleNote]⟩
        #[0x62, 0, 0, 0, 0x78] .default).outcome = .ok scans ∧
      ∀ block note, scans[0]? = some block → scans[1]? = some note →
        (∀ rejection ∈ note.rejected, ∀ reference reason,
          rejection.error.cause = .unresolved reference reason → block.records = []) ∧
        (block.records = [] → note.records = []) := by
  obtain ⟨scans, outcome, _, references⟩ :=
    scan_references ofDocument_sampleDocument
      (by decide : (#[0x62, 0, 0, 0, 0x78] : Bytes).size < 2 ^ 53) .default ⟨.info, ⟨0⟩⟩ rfl
  refine ⟨scans, outcome, fun block note first second => ?_⟩
  obtain ⟨rejections, missing⟩ := references 1 sampleNote note rfl second
  constructor
  · intro rejection member reference reason cause
    obtain ⟨front, source, earlier, before, _, result, _, _, nothing, _⟩ :=
      rejections rejection member reference reason cause
    obtain rfl : front = 0 := by omega
    rw [first] at result
    cases result
    exact nothing
  · exact missing _ (.head _) _ rfl 0 sampleBlock block (by decide) rfl first rfl

end Plan

namespace Scanned

variable {stream : Bytes} {options : Options} {layouts : List Layout} {store last : Store}
  {scans : List StructureScan} {layout : Layout} {scan : StructureScan} {index : Nat}

theorem lastRecord_inFront (scanned : Scanned stream options layouts store scans last)
    (distinct : (layouts.map Layout.name).Nodup) {reached : Store}
    (latest : ∀ (front : Nat) (source : Layout) (earlier : StructureScan), front < index →
      layouts[front]? = some source → scans[front]? = some earlier →
      reached.latestOf source.name = earlier.records.getLast?) :
    ∀ source ∈ layouts.take index,
      reached.latestOf source.name = StructureScan.lastRecord? scans source.name := by
  intro source inFront
  obtain ⟨front, earlier, before, there, result⟩ := scanned.ahead inFront
  rw [latest front source earlier before there result, StructureScan.lastRecord?,
    scanned.named distinct there result, Option.bind_some]

theorem record_decoded (scanned : Scanned stream options layouts .empty scans last)
    (wellFormed : EachAfter Layout.WellFormed layouts)
    (declared : layouts[index]? = some layout) (given : scans[index]? = some scan)
    {record : Record} (recorded : record ∈ scan.records) :
    ∃ place reached, layout.signature.OccursAt stream place ∧
      layout.candidate stream options.maxSize reached place = .ok record ∧
      ∀ source ∈ layouts.take index,
        reached.latestOf source.name = StructureScan.lastRecord? scans source.name := by
  have distinct := Layout.names_distinct wellFormed
  obtain ⟨pass, events, made, rfl, candidates⟩ := scanned.candidates wellFormed declared given
  obtain ⟨rfl, _, rfl, rfl⟩ := Pass.ofLayout_eq_ok made
  obtain ⟨place, reached, occurs, examined, latest⟩ :=
    candidates _ (StructureScan.mem_records.mp recorded)
  exact ⟨place, reached, occurs, Pass.examine_eq_found.mp examined,
    scanned.lastRecord_inFront distinct latest⟩

end Scanned

namespace Plan

/-- In the result of a scan every size is the one declared: a literal, the integer of an earlier
field of the same record, or that of a field of the last record of another structure. -/
theorem scan_links_sizes {document : Document} {streamLength : Option Int} {plan : Plan}
    (compiled : ofDocument document streamLength = .ok plan) {stream : Bytes}
    (small : stream.size < 2 ^ 53) (options : Options) (session : Session)
    (quiet : options.stopsAfter (plan.scan session stream options).log = false) :
    ∃ scans, (plan.scan session stream options).outcome = .ok scans ∧
      scans.map StructureScan.structureName = plan.layouts.map Layout.name ∧
      ∀ (index : Nat) (layout : Layout) (scan : StructureScan),
        plan.layouts[index]? = some layout → scans[index]? = some scan →
        ∀ record ∈ scan.records, ∀ before field after, layout.fields = before ++ field :: after →
        ∀ size, field.content.size? = some size →
        ∃ reading, record.fields.find? field.name = some reading ∧
          size.Gives layout.name before record (StructureScan.lastRecord? scans) options.maxSize
            reading.size := by
  have wellFormed := wellFormed_ofDocument compiled
  obtain ⟨scans, last, outcome, scanned⟩ := scan_course wellFormed small quiet
  refine ⟨scans, outcome, scanned.names, ?_⟩
  intro index layout scan declared given record recorded before field after split size sized
  have valid := wellFormed.at_index declared
  obtain ⟨place, reached, occurs, decoded, latest⟩ :=
    scanned.record_decoded wellFormed declared given recorded
  obtain ⟨reading, held, gives⟩ :=
    valid.candidate_sizes small (occurs.inside valid.signature.1) decoded split sized
  refine ⟨reading, held, gives.congr ?_⟩
  intro reference owner sameSize owned elsewhere
  have refers : field.RefersTo layout.name owner :=
    ⟨reference, sameSize ▸ sized, owned, elsewhere⟩
  obtain ⟨source, inFront, rfl⟩ := valid.source_inFront (by simp [split]) refers
  exact latest source inFront

/-- The block takes its size from a byte of its own, the note from the last block. -/
theorem scan_links_sizes_of_sample :
    ∃ scans, (Plan.scan ⟨.info, ⟨0⟩⟩ ⟨.big, [sampleBlock, sampleNote]⟩
        #[0x61, 0x61, 1, 0, 7, 0x62, 0, 0, 0x78, 0x61, 0x61, 9] .default).outcome = .ok scans ∧
      ∀ note, scans[1]? = some note → ∀ record ∈ note.records,
        ∃ reading block, record.fields.find? "text" = some reading ∧
          StructureScan.lastRecord? scans "block" = some block ∧
          block.integer? "size" = some reading.size := by
  obtain ⟨scans, outcome, _, linked⟩ :=
    scan_links_sizes ofDocument_sampleDocument
      (by decide : (#[0x61, 0x61, 1, 0, 7, 0x62, 0, 0, 0x78, 0x61, 0x61, 9] : Bytes).size < 2 ^ 53)
      .default ⟨.info, ⟨0⟩⟩ rfl
  refine ⟨scans, outcome, fun note second record recorded => ?_⟩
  obtain ⟨reading, held, gives⟩ :=
    linked 1 sampleNote note rfl second record recorded [] _ [] rfl _ rfl
  cases gives with
  | own _ inFront _ _ => simp at inFront
  | @foreign _ owner block _ owned _ stands integer _ =>
      cases owned
      exact ⟨reading, block, held, stands, integer⟩

end Plan

end Carve
