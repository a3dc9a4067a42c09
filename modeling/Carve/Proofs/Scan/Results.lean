import Carve.Proofs.Plan.Selection
import Carve.Proofs.Refusal
import Carve.Proofs.Scan.References
import Carve.Proofs.Spans

namespace Carve

namespace Plan

/-- In the result of a scan every record stands behind its signature, has the declared fields in
their order and all bytes in the stream, and ends with its last field.  Fields whose offsets do not
lead back follow one another between the record's start and its end. -/
theorem scan_anchors_records {document : Document} {streamLength : Option Int} {plan : Plan}
    (compiled : ofDocument document streamLength = .ok plan) {stream : Bytes}
    (small : stream.size < 2 ^ 53) (options : Options) (session : Session)
    (quiet : options.stopsAfter (plan.scan session stream options).log = false) :
    ∃ scans, (plan.scan session stream options).outcome = .ok scans ∧
      scans.map StructureScan.structureName = document.structures.map Declaration.name ∧
      plan.layouts.map Layout.name = document.structures.map Declaration.name ∧
      ∀ (index : Nat) (declaration : Declaration) (layout : Layout) (scan : StructureScan),
        document.structures[index]? = some declaration → plan.layouts[index]? = some layout →
        scans[index]? = some scan →
        layout.fields.map Field.name = declaration.fields.map Field.name ∧
        ∀ record ∈ scan.records, record.Anchored layout stream ∧
          ((∀ field ∈ layout.fields, ∀ offset ∈ field.offset, 0 ≤ offset) → record.InOrder) := by
  have wellFormed := wellFormed_ofDocument compiled
  obtain ⟨_, _, each⟩ := ofDocument_compiled compiled
  obtain ⟨scans, last, outcome, scanned⟩ := scan_course wellFormed small quiet
  refine ⟨scans, outcome, scanned.names.trans each.names, each.names, ?_⟩
  intro index declaration layout scan written declared given
  refine ⟨each.fieldNames written declared, fun record recorded => ?_⟩
  have valid := wellFormed.at_index declared
  obtain ⟨place, reached, occurs, decoded, _⟩ :=
    scanned.record_decoded wellFormed declared given recorded
  refine ⟨valid.candidate_anchored small occurs decoded, fun forward => ?_⟩
  exact valid.candidate_inOrder small (occurs.inside valid.signature.1) forward decoded

/-- The block has its data one byte behind its size, and the note is aligned. -/
theorem scan_anchors_records_of_sample :
    ∃ scans, (Plan.scan ⟨.info, ⟨0⟩⟩ ⟨.big, [sampleBlock, sampleNote]⟩
        #[0x61, 0x61, 1, 0, 7, 0x62, 0, 0, 0x78, 0x61, 0x61, 9] .default).outcome = .ok scans ∧
      ∀ block, scans[0]? = some block → ∀ record ∈ block.records,
        record.fields.names = ["size", "data"] ∧ record.InOrder := by
  obtain ⟨scans, outcome, _, _, anchored⟩ :=
    scan_anchors_records ofDocument_sampleDocument
      (by decide : (#[0x61, 0x61, 1, 0, 7, 0x62, 0, 0, 0x78, 0x61, 0x61, 9] : Bytes).size < 2 ^ 53)
      .default ⟨.info, ⟨0⟩⟩ rfl
  refine ⟨scans, outcome, fun block first record recorded => ?_⟩
  obtain ⟨_, records⟩ := anchored 0 _ sampleBlock block rfl rfl first
  obtain ⟨stands, inOrder⟩ := records record recorded
  exact ⟨stands.names, inOrder (by decide)⟩

end Plan

theorem StructureScan.mem_rejected {structureName : String} {events : List Pass.Event}
    {rejection : Rejection} :
    rejection ∈ (ofEvents structureName events).rejected ↔
      Pass.Event.rejected rejection ∈ events := by
  refine ⟨fun rejected => ?_, fun present => List.mem_filterMap.mpr ⟨_, present, rfl⟩⟩
  obtain ⟨event, present, same⟩ := List.mem_filterMap.mp rejected
  cases event with
  | found record => contradiction
  | rejected other =>
      cases same
      exact present

theorem Scanned.rejection_refused {stream : Bytes} {options : Options} {layouts : List Layout}
    {last : Store} {scans : List StructureScan} {layout : Layout} {scan : StructureScan}
    {index : Nat} (scanned : Scanned stream options layouts .empty scans last)
    (wellFormed : EachAfter Layout.WellFormed layouts)
    (declared : layouts[index]? = some layout) (given : scans[index]? = some scan)
    {rejection : Rejection} (rejected : rejection ∈ scan.rejected) :
    rejection.structureName = layout.name ∧ ∃ (place : Nat) (reached : Store),
      rejection.signatureOffset = place ∧ layout.signature.OccursAt stream place ∧
      layout.candidate stream options.maxSize reached place = .error (.refused rejection.error) ∧
      ∀ source ∈ layouts.take index,
        reached.latestOf source.name = StructureScan.lastRecord? scans source.name := by
  have distinct := Layout.names_distinct wellFormed
  obtain ⟨pass, events, made, rfl, candidates⟩ := scanned.candidates wellFormed declared given
  obtain ⟨rfl, _, rfl, rfl⟩ := Pass.ofLayout_eq_ok made
  obtain ⟨place, reached, occurs, examined, latest⟩ :=
    candidates _ (StructureScan.mem_rejected.mp rejected)
  obtain ⟨refused, named, stands⟩ := Pass.examine_eq_rejected.mp examined
  exact ⟨named, place, reached, stands, occurs, refused,
    scanned.lastRecord_inFront distinct latest⟩

namespace Plan

/-- In the result of a scan every rejection is that of a candidate, for a field of its structure,
behind fields that were read from the same candidate, and what it says of the field is so. -/
theorem scan_rejects_truthfully {document : Document} {streamLength : Option Int} {plan : Plan}
    (compiled : ofDocument document streamLength = .ok plan) {stream : Bytes}
    (small : stream.size < 2 ^ 53) {options : Options} {session : Session}
    {scans : List StructureScan}
    (given : (plan.scan session stream options).outcome = .ok scans) :
    scans.map StructureScan.structureName = plan.layouts.map Layout.name ∧
    ∀ (index : Nat) (layout : Layout) (scan : StructureScan),
      plan.layouts[index]? = some layout → scans[index]? = some scan →
      ∀ rejection ∈ scan.rejected, rejection.structureName = layout.name ∧
      ∃ (place : Nat) (reached : Store) (before : List (Field Int)) (field : Field Int)
        (after : List (Field Int)) (front : Record),
        rejection.signatureOffset = place ∧ layout.signature.OccursAt stream place ∧
        (∀ source ∈ plan.layouts.take index,
          reached.latestOf source.name = StructureScan.lastRecord? scans source.name) ∧
        layout.candidate stream options.maxSize reached place =
          .error (.refused rejection.error) ∧
        layout.fields = before ++ field :: after ∧ rejection.error.field = field.name ∧
        (layout.withFields before).candidate stream options.maxSize reached place = .ok front ∧
        rejection.error.Truthful field before front (StructureScan.lastRecord? scans)
          options.maxSize stream := by
  have wellFormed := wellFormed_ofDocument compiled
  obtain ⟨last, scanned⟩ := scan_course_of_ok wellFormed small given
  refine ⟨scanned.names, ?_⟩
  intro index layout scan declared there rejection rejected
  have valid := wellFormed.at_index declared
  obtain ⟨named, place, reached, stands, occurs, refused, latest⟩ :=
    scanned.rejection_refused wellFormed declared there rejected
  obtain ⟨before, field, after, front, split, read, truthful⟩ :=
    valid.refusal_truthful small (occurs.inside valid.signature.1) refused
  refine ⟨named, place, reached, before, field, after, front, stands, occurs, latest, refused,
    split, truthful.field_eq, read, truthful.congr fun owner refers => ?_⟩
  rw [(Layout.candidate_head read).1] at refers
  obtain ⟨source, inFront, rfl⟩ := valid.source_inFront (by simp [split]) refers
  exact latest source inFront

/-- A footer with a note of one byte, which is no text. -/
theorem scan_rejects_truthfully_sample :
    let scan : StructureScan := ⟨"footer", [], [⟨"footer", 0, ⟨"note", 6, .invalidUtf8⟩⟩]⟩
    (Plan.scan ⟨.info, ⟨0⟩⟩ ⟨.big, [sampleFooter]⟩ #[0x46, 0x4f, 0, 1, 1, 9, 0xff]
        .default).outcome = .ok [scan] ∧
      ∃ before field front, field.name = "note" ∧
        DecodeError.Truthful field before front (StructureScan.lastRecord? [scan]) maxSizeLimit
          #[0x46, 0x4f, 0, 1, 1, 9, 0xff] ⟨"note", 6, .invalidUtf8⟩ := by
  intro scan
  have given : (Plan.scan ⟨.info, ⟨0⟩⟩ ⟨.big, [sampleFooter]⟩
      #[0x46, 0x4f, 0, 1, 1, 9, 0xff] .default).outcome = .ok [scan] := by
    decide +kernel
  have small : (#[0x46, 0x4f, 0, 1, 1, 9, 0xff] : Bytes).size < 2 ^ 53 := by decide
  obtain ⟨_, rejections⟩ := scan_rejects_truthfully ofDocument_sampleFooterDocument small given
  obtain ⟨_, _, _, before, field, _, front, _, _, _, _, _, named, _, truthful⟩ :=
    rejections 0 sampleFooter scan rfl rfl _ (.head _)
  exact ⟨given, before, field, front, named.symm, truthful⟩

end Plan

end Carve
