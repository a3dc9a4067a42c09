import Carve.Proofs.Plan.Selection
import Carve.Proofs.Scan.References

/-!
Scans of some of the structures of a document, in any order.

A pass depends on other structures only through the last records of those that its own refers to.
A plan has these in front of it, in whatever order the structures stand, so by induction along that
order every structure is scanned alike in all documents that have it
(`Plan.scan_of_selection`).
-/

namespace Carve

namespace Scanned

variable {stream : Bytes} {options : Options} {layouts chosen : List Layout}
  {last lastChosen : Store} {scans scansChosen : List StructureScan} {layout : Layout}

/-- A layout has its scan, and the pass of it began with the last records of the structures in
front. -/
theorem pass_of (scanned : Scanned stream options layouts .empty scans last)
    (wellFormed : EachAfter Layout.WellFormed layouts) {index : Nat}
    (declared : layouts[index]? = some layout) :
    ∃ scan store pass events after, StructureScan.named? scans layout.name = some scan ∧
      Pass.ofLayout layout stream options = .ok pass ∧
      pass.Course pass.start.toNat store events after ∧ scan = .ofEvents layout.name events ∧
      ∀ source ∈ layouts.take index,
        store.latestOf source.name = StructureScan.lastRecord? scans source.name := by
  have distinct := Layout.names_distinct wellFormed
  have present : index < scans.length := by
    rw [scanned.length_eq]
    exact (List.getElem?_eq_some_iff.mp declared).1
  have given : scans[index]? = some scans[index] := List.getElem?_eq_getElem present
  obtain ⟨store, pass, events, after, made, course, same, latest⟩ :=
    scanned.before_pass distinct declared given
  exact ⟨scans[index], store, pass, events, after, scanned.named distinct declared given, made,
    course, same, scanned.lastRecord_inFront distinct latest⟩

/-- Scans with and without some structures, in one order or another, agree on what both scan. -/
theorem agree (scanned : Scanned stream options layouts .empty scans last)
    (scannedChosen : Scanned stream options chosen .empty scansChosen lastChosen)
    (wellFormed : EachAfter Layout.WellFormed layouts)
    (wellFormedChosen : EachAfter Layout.WellFormed chosen) (subset : chosen ⊆ layouts)
    {index : Nat} (declared : chosen[index]? = some layout) :
    ∃ scan, StructureScan.named? scansChosen layout.name = some scan ∧
      StructureScan.named? scans layout.name = some scan := by
  induction index using Nat.strongRecOn generalizing layout with
  | ind index ih =>
      obtain ⟨place, there⟩ := List.getElem?_of_mem (subset (List.mem_of_getElem? declared))
      obtain ⟨scan, store, pass, events, after, found, made, course, same, latest⟩ :=
        scanned.pass_of wellFormed there
      obtain ⟨scanChosen, storeChosen, passChosen, eventsChosen, afterChosen, foundChosen,
        madeChosen, courseChosen, sameChosen, latestChosen⟩ :=
        scannedChosen.pass_of wellFormedChosen declared
      cases made.symm.trans madeChosen
      have sources : pass.layout.SameSources store storeChosen := by
        rw [(Pass.ofLayout_eq_ok made).1]
        intro field member owner refers
        -- Both plans have the owner in front, and both scans have it alike by then.
        obtain ⟨source, inFront, named⟩ :=
          (wellFormed.at_index there).source_inFront member refers
        obtain ⟨sourceChosen, inFrontChosen, rfl⟩ :=
          (wellFormedChosen.at_index declared).source_inFront member refers
        obtain ⟨front, inside, rfl⟩ := List.mem_take_iff_getElem.mp inFrontChosen
        obtain ⟨earlier, foundEarlier, foundAgain⟩ :=
          ih front (by omega) (List.getElem?_eq_getElem (by omega))
        rw [← named, latest source inFront, named, latestChosen _ inFrontChosen,
          StructureScan.lastRecord?, StructureScan.lastRecord?, foundEarlier, foundAgain]
      rw [course.determined courseChosen sources, ← sameChosen] at same
      exact ⟨scanChosen, foundChosen, same ▸ found⟩

end Scanned

namespace Plan

/-- If structures are dropped from a document and the others reordered, the scans of these others
stay the same. -/
theorem scan_of_selection {document selection : Document} (selects : selection.Selects document)
    {streamLength : Option Int} {plan chosen : Plan}
    (compiled : ofDocument document streamLength = .ok plan)
    (compiledChosen : ofDocument selection streamLength = .ok chosen) {stream : Bytes}
    (small : stream.size < 2 ^ 53) (options : Options) (session sessionChosen : Session)
    (signal : Option Signal)
    (quiet : options.stopsAfter (plan.scan session stream options).log = false)
    (quietChosen : { options with signal }.stopsAfter
      (chosen.scan sessionChosen stream { options with signal }).log = false) :
    ∃ scans scansChosen, (plan.scan session stream options).outcome = .ok scans ∧
      (chosen.scan sessionChosen stream { options with signal }).outcome = .ok scansChosen ∧
      scans.map StructureScan.structureName = document.structures.map Declaration.name ∧
      scansChosen.map StructureScan.structureName = selection.structures.map Declaration.name ∧
      ∀ declaration ∈ selection.structures, ∃ scan,
        StructureScan.named? scansChosen declaration.name = some scan ∧
        StructureScan.named? scans declaration.name = some scan := by
  have wellFormed := wellFormed_ofDocument compiled
  have wellFormedChosen := wellFormed_ofDocument compiledChosen
  obtain ⟨scans, last, outcome, scanned⟩ := scan_course wellFormed small quiet
  obtain ⟨scansChosen, lastChosen, outcomeChosen, scannedChosen⟩ :=
    scan_course wellFormedChosen small quietChosen
  obtain ⟨_, _, each⟩ := ofDocument_compiled compiled
  obtain ⟨_, _, eachChosen⟩ := ofDocument_compiled compiledChosen
  refine ⟨scans, scansChosen, outcome, outcomeChosen, scanned.names.trans each.names,
    scannedChosen.names.trans eachChosen.names, ?_⟩
  intro declaration declared
  have named : declaration.name ∈ chosen.layouts.map Layout.name :=
    eachChosen.names ▸ List.mem_map_of_mem declared
  obtain ⟨layout, member, same⟩ := List.mem_map.mp named
  obtain ⟨index, there⟩ := List.getElem?_of_mem member
  rw [← same]
  exact (scanned.watching signal).agree scannedChosen wellFormed wellFormedChosen
    (layouts_of_selection selects compiled compiledChosen) there

/-- A structure without fields. -/
def sampleMark (name : String) : Declaration where
  name := name
  signature := .literal "0x78"
  byteOrder := none
  hint := none
  fields := []

def sampleMarkLayout (name : String) : Layout where
  name := name
  signature := #[0x78]
  byteOrder := .big
  hint := none
  fields := []

def sampleMarked : Document :=
  { sampleDocument with
    structures := sampleDocument.structures ++ [sampleMark "first", sampleMark "second"] }

def sampleReordered : Document :=
  { sampleDocument with structures := sampleMark "second" :: sampleDocument.structures }

/-- The first mark is dropped, and the second one is moved in front of the block and the note. -/
theorem scan_of_selection_sample :
    ∃ scans scansChosen,
      (Plan.scan ⟨.info, ⟨0⟩⟩
        ⟨.big, [sampleBlock, sampleNote, sampleMarkLayout "first", sampleMarkLayout "second"]⟩
        #[0x61, 0x61, 1, 0, 7, 0x62, 0, 0, 0x78] .default).outcome = .ok scans ∧
      (Plan.scan ⟨.debug, ⟨0⟩⟩
        ⟨.big, [sampleMarkLayout "second", sampleBlock, sampleNote]⟩
        #[0x61, 0x61, 1, 0, 7, 0x62, 0, 0, 0x78] .default).outcome = .ok scansChosen ∧
      ∀ name ∈ ["second", "block", "note"], ∃ scan,
        StructureScan.named? scansChosen name = some scan ∧
        StructureScan.named? scans name = some scan := by
  have selects : sampleReordered.Selects sampleMarked :=
    ⟨rfl, rfl, sampleDocument.structures ++ [sampleMark "second"], by simp [sampleMarked],
      (List.perm_append_singleton _ _).symm⟩
  have compiled : ofDocument sampleMarked none = .ok ⟨.big, [sampleBlock, sampleNote,
    sampleMarkLayout "first", sampleMarkLayout "second"]⟩ := rfl
  have compiledChosen : ofDocument sampleReordered none = .ok ⟨.big, [sampleMarkLayout "second",
    sampleBlock, sampleNote]⟩ := rfl
  obtain ⟨scans, scansChosen, outcome, outcomeChosen, _, _, same⟩ :=
    scan_of_selection selects compiled compiledChosen
      (by decide : (#[0x61, 0x61, 1, 0, 7, 0x62, 0, 0, 0x78] : Bytes).size < 2 ^ 53) .default
      ⟨.info, ⟨0⟩⟩ ⟨.debug, ⟨0⟩⟩ none rfl rfl
  refine ⟨scans, scansChosen, outcome, outcomeChosen, ?_⟩
  intro name listed
  have names : sampleReordered.structures.map Declaration.name = ["second", "block", "note"] := rfl
  obtain ⟨declaration, declared, rfl⟩ := List.mem_map.mp (names ▸ listed)
  exact same declaration declared

end Plan

end Carve
