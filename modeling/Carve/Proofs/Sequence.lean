import Carve.Proofs.Pass.Laziness
import Carve.Proofs.Scan.Selection
import Carve.Query

namespace Carve

/-- The iteration after a number of records have been asked for. -/
def Iteration.advance (threshold : Log.Level) (iteration : Iteration) : Nat → Iteration
  | 0 => iteration
  | count + 1 => ((iteration.advance threshold count).next threshold).2

/-- A sequence has these records, gone through at once or one by one. -/
structure Sequence.Gives (sequence : Sequence) (threshold : Log.Level) (records : List Record) :
    Prop where
  all : (sequence.records threshold).outcome = .ok records
  each : ∀ count, ((sequence.start.advance threshold count).next threshold).1.outcome =
    .ok records[count]?

namespace Pass

variable {pass : Pass} {events : List Event} {last : Store}

theorem advance_stands (pass : Pass) (threshold : Log.Level) (count : Nat) :
    let iteration := (Sequence.start { pass := some pass }).advance threshold count
    iteration.sequence.pass = some pass ∧
      iteration.search.getD (pass.begin .empty) = pass.requested threshold .empty count := by
  induction count with
  | zero => exact ⟨rfl, rfl⟩
  | succ count ih =>
      obtain ⟨same, stands⟩ := ih
      simp only [Iteration.advance, Iteration.next, same, stands, true_and]
      rfl

/-- The sequence of a pass has the records that the pass finds from an empty store. -/
theorem Faultless.gives (faultless : pass.Faultless) (threshold : Log.Level) :
    ∃ events last, pass.Course pass.start.toNat .empty events last ∧
      Sequence.Gives { pass := some pass } threshold (Event.records events) := by
  obtain ⟨fault, _, course, _⟩ := run_course faultless threshold .empty
  refine ⟨_, _, course, ?_, fun count => ?_⟩
  · simp only [Sequence.records, fault]
    rfl
  · obtain ⟨same, stands⟩ := pass.advance_stands threshold count
    have stops := (course.requested threshold count).1.run_stops threshold 1
    have given := stops.records
    rw [Event.records_behind, List.take_one, List.head?_drop] at given
    simp only [Iteration.next, same, stands, stops.fault, given, Option.head?_toList]

/-- Without a record of a structure that its own refers to, a pass rejects all it meets. -/
theorem Course.no_records {earlier : List Layout} {offset : Nat} {store : Store}
    (course : pass.Course offset store events last) (wellFormed : pass.layout.WellFormed earlier)
    (small : pass.stream.size < 2 ^ 53) (signature : pass.signature.bytes = pass.layout.signature)
    {field : Field Int} (member : field ∈ pass.layout.fields) {owner : String}
    (refers : field.RefersTo pass.layout.name owner) (missing : store.latestOf owner = none) :
    Event.records events = [] := by
  obtain ⟨reference, declared, owned, foreign⟩ := refers
  apply List.eq_nil_iff_forall_not_mem.mpr
  intro record recorded
  obtain ⟨event, present, same⟩ := List.mem_filterMap.mp recorded
  cases event with
  | rejected rejection => contradiction
  | found found =>
      cases same
      obtain ⟨place, reached, occurs, examined, kept⟩ := course.examined _ present
      rw [signature] at occurs
      rw [← kept owner foreign] at missing
      exact wellFormed.candidate_of_missing small (occurs.inside wellFormed.signature.1) member
        declared owned foreign missing record (examine_eq_found.mp examined)

end Pass

/-- A structure that refers to no other has the same records in a sequence of its own as in the scan
of the whole plan; one that does has none in a sequence. -/
theorem Query.sequence_agrees_with_scan {document : Document} {streamLength : Option Int}
    {plan : Plan} (compiled : Plan.ofDocument document streamLength = .ok plan) {layout : Layout}
    (declared : layout ∈ plan.layouts) {stream : Bytes} (small : stream.size < 2 ^ 53)
    {environment : List (String × String)} {written : Option Options.Given} {options : Options}
    (resolved : Options.resolve written environment = .ok options) (session : Session)
    (quiet : options.stopsAfter (Query.scan { plan } session environment stream written).log =
      false) (threshold : Log.Level) :
    ∃ sequence scans scan records,
      Query.sequence { plan } environment layout.name stream written = .ok sequence ∧
      (Query.scan { plan } session environment stream written).outcome = .ok scans ∧
      StructureScan.named? scans layout.name = some scan ∧ sequence.Gives threshold records ∧
      ((∀ field ∈ layout.fields, ∀ owner, ¬ field.RefersTo layout.name owner) →
        records = scan.records) ∧
      ((∃ field ∈ layout.fields, ∃ owner, field.RefersTo layout.name owner) → records = []) := by
  have wellFormed := Plan.wellFormed_ofDocument compiled
  simp only [Query.scan, resolved] at quiet ⊢
  obtain ⟨scans, last, outcome, scanned⟩ := Plan.scan_course wellFormed small quiet
  obtain ⟨index, there⟩ := List.getElem?_of_mem declared
  obtain ⟨scan, store, pass, events, after, named, made, course, rfl, _⟩ :=
    scanned.pass_of wellFormed there
  have valid := wellFormed.at_index there
  have found : Query.layout? { plan } layout.name = some layout :=
    List.find?_key (Layout.names_distinct wellFormed) declared
  obtain ⟨own, lastOwn, courseOwn, gives⟩ :=
    (Pass.ofLayout_faultless valid small made).gives threshold
  refine ⟨{ pass := some pass }, scans, _, Pass.Event.records own, ?_, ?_, named, gives, ?_, ?_⟩
  · simp only [Query.sequence, found, resolved, made]
  · rw [outcome]
    rfl
  · intro refersNot
    obtain ⟨rfl, _⟩ := Pass.ofLayout_eq_ok made
    have alike : pass.layout.SameSources .empty store :=
      fun field member owner refers => absurd refers (refersNot field member owner)
    rw [courseOwn.determined course alike]
    rfl
  · intro refersTo
    obtain ⟨field, member, owner, refers⟩ := refersTo
    obtain ⟨rfl, signature, rfl, _⟩ := Pass.ofLayout_eq_ok made
    exact courseOwn.no_records valid small signature member refers rfl

/-- A block with a note behind it: the scan of the plan may find both, a sequence only the block. -/
theorem Query.sequence_agrees_with_scan_sample :
    let query : Query := { plan := ⟨.big, [Plan.sampleBlock, Plan.sampleNote]⟩ }
    let stream : Bytes := #[0x61, 0x61, 1, 0, 7, 0x62, 0, 0, 0x78]
    ∃ block note scans scan,
      query.sequence [] "block" stream none = .ok block ∧
      query.sequence [] "note" stream none = .ok note ∧
      (query.scan ⟨.info, ⟨0⟩⟩ [] stream none).outcome = .ok scans ∧
      StructureScan.named? scans "block" = some scan ∧ block.Gives .debug scan.records ∧
      note.Gives .debug [] := by
  intro query stream
  have resolved : Options.resolve none [] = .ok .default := rfl
  have small : stream.size < 2 ^ 53 := by decide
  obtain ⟨block, scans, scan, found, sequence, outcome, named, gives, agrees, _⟩ :=
    sequence_agrees_with_scan Plan.ofDocument_sampleDocument (by simp : Plan.sampleBlock ∈ _) small
      resolved ⟨.info, ⟨0⟩⟩ rfl .debug
  obtain ⟨note, _, _, read, sequenceNote, _, _, givesNote, _, nothing⟩ :=
    sequence_agrees_with_scan Plan.ofDocument_sampleDocument (by simp : Plan.sampleNote ∈ _) small
      resolved ⟨.info, ⟨0⟩⟩ rfl .debug
  refine ⟨block, note, scans, scan, sequence, sequenceNote, outcome, named, ?_, ?_⟩
  · rwa [agrees] at gives
    intro field member owner refers
    obtain ⟨reference, declared, owned, _⟩ := refers
    simp only [Plan.sampleBlock, List.mem_cons, List.not_mem_nil, or_false] at member
    rcases member with rfl | rfl <;> cases declared
    contradiction
  · rwa [nothing] at givesNote
    exact ⟨_, .head _, "block", ⟨"size", some "block"⟩, rfl, rfl, by decide⟩

end Carve
