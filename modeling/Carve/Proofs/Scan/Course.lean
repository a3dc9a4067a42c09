import Carve.Proofs.Pass.Course
import Carve.Proofs.Plan.Compiled
import Carve.Scan

/-!
The course of a scan: one pass behind the other over a shared store.

A scan that no signal stops takes such a course (`Plan.scan_course`).  The store that a pass begins
with holds the last record of every structure scanned before (`Scanned.before_pass`).

With a plan that a document compiles to, a scan comes to its end: whatever the bytes say is a record
or a refusal, and never a fault.
-/

namespace Carve

/-- What a pass with these events gives. -/
def StructureScan.ofEvents (structureName : String) (events : List Pass.Event) : StructureScan where
  structureName
  records := events.filterMap Pass.Event.record?
  rejected := events.filterMap Pass.Event.rejection?

theorem StructureScan.mem_records {structureName : String} {events : List Pass.Event}
    {record : Record} :
    record ∈ (ofEvents structureName events).records ↔ Pass.Event.found record ∈ events := by
  refine ⟨fun recorded => ?_, fun present => List.mem_filterMap.mpr ⟨_, present, rfl⟩⟩
  obtain ⟨event, present, same⟩ := List.mem_filterMap.mp recorded
  cases event with
  | rejected rejection => contradiction
  | found found =>
      cases same
      exact present

/-- The scan of a structure in a result. -/
def StructureScan.named? (scans : List StructureScan) (name : String) : Option StructureScan :=
  scans.find? fun scan => scan.structureName = name

/-- The last record of a structure in a result. -/
def StructureScan.lastRecord? (scans : List StructureScan) (name : String) : Option Record :=
  (named? scans name).bind fun scan => scan.records.getLast?

/-- What the passes of layouts give one behind the other, from one store to another. -/
inductive Scanned (stream : Bytes) (options : Options) :
    List Layout → Store → List StructureScan → Store → Prop
  | nil {store : Store} : Scanned stream options [] store [] store
  | cons {layout : Layout} {rest : List Layout} {pass : Pass} {store middle last : Store}
      {events : List Pass.Event} {scans : List StructureScan}
      (made : Pass.ofLayout layout stream options = .ok pass)
      (course : pass.Course pass.start.toNat store events middle)
      (tail : Scanned stream options rest middle scans last) :
      Scanned stream options (layout :: rest) store
        (StructureScan.ofEvents layout.name events :: scans) last

theorem Signal.quiet_of_prefix (signal : Signal) {entries longer : List Log.Entry}
    (grown : entries <+: longer) (quiet : signal.raisedAfter longer = false) :
    signal.raisedAfter entries = false := by
  obtain ⟨more, rfl⟩ := grown
  refine Bool.eq_false_iff.mpr fun raised => ?_
  rw [signal.stays entries more raised] at quiet
  contradiction

theorem Options.quiet_of_prefix {options : Options} {entries longer : List Log.Entry}
    (grown : entries <+: longer) (quiet : options.stopsAfter longer = false) :
    options.stopsAfter entries = false := by
  obtain ⟨_, _, signal⟩ := options
  cases signal with
  | none => rfl
  | some signal => exact signal.quiet_of_prefix grown quiet

namespace Plan

variable {session : Session} {stream : Bytes} {options : Options} {layouts : List Layout}
  {store : Store} {log : List Log.Entry} {scanned : List StructureScan}

theorem scanLayouts_log : ∃ more,
    (scanLayouts session options stream layouts store log scanned).log = log ++ more := by
  induction layouts generalizing store log scanned with
  | nil => exact ⟨_, rfl⟩
  | cons layout rest ih =>
      rw [scanLayouts]
      split
      · exact ⟨[], (List.append_nil log).symm⟩
      · split
        · exact ⟨[], (List.append_nil log).symm⟩
        · dsimp only
          split
          · exact ⟨_, List.append_assoc _ _ _⟩
          · obtain ⟨more, extended⟩ := ih
            exact ⟨_, by rw [extended]; simp only [List.append_assoc]; rfl⟩

/-- A signal that is not raised when a scan has ended was not raised at any time before. -/
theorem quiet_before
    (quiet : options.stopsAfter
      (scanLayouts session options stream layouts store log scanned).log = false) :
    options.stopsAfter log = false := by
  obtain ⟨more, extended⟩ := scanLayouts_log
  exact Options.quiet_of_prefix ⟨more, extended.symm⟩ quiet

/-- As long as the signal is not raised, a scan goes on behind the pass of a layout. -/
theorem scanLayouts_cons {layout : Layout} {pass : Pass} {events : List Pass.Event}
    {middle : Store} (made : Pass.ofLayout layout stream options = .ok pass)
    (course : pass.Course pass.start.toNat store events middle)
    (quiet : options.stopsAfter log = false) :
    scanLayouts session options stream (layout :: layouts) store log scanned =
      scanLayouts session options stream layouts middle
        (log ++ pass.opening session.threshold ++
          events.flatMap (Pass.Event.log session.threshold) ++
          Log.written session.threshold (StructureScan.ofEvents layout.name events).summary)
        (scanned ++ [.ofEvents layout.name events]) := by
  rw [scanLayouts, if_neg (by simp [quiet])]
  simp only [made, course.run_eq]
  rfl

theorem scanLayouts_course (wellFormed : ∀ layout ∈ layouts, ∃ earlier, layout.WellFormed earlier)
    (small : stream.size < 2 ^ 53)
    (quiet : options.stopsAfter
      (scanLayouts session options stream layouts store log scanned).log = false) :
    ∃ scans last,
      (scanLayouts session options stream layouts store log scanned).outcome =
        .ok (scanned ++ scans) ∧
      Scanned stream options layouts store scans last := by
  induction layouts generalizing store log scanned with
  | nil => exact ⟨[], store, by simp [scanLayouts], .nil⟩
  | cons layout rest ih =>
      have silent := quiet_before quiet
      obtain ⟨earlier, valid⟩ := wellFormed layout (by simp)
      obtain ⟨pass, made⟩ := Pass.ofLayout_exists stream options valid
      obtain ⟨_, _, course, _⟩ :=
        Pass.run_course (Pass.ofLayout_faultless valid small made) session.threshold store
      rw [scanLayouts_cons made course silent] at quiet ⊢
      obtain ⟨scans, last, outcome, tail⟩ :=
        ih (fun other member => wellFormed other (by simp [member])) quiet
      refine ⟨_, last, ?_, .cons made course tail⟩
      rw [outcome, List.append_assoc]
      rfl

/-- What a scan gives when it comes to its end, whether or not the signal has been raised. -/
theorem scanLayouts_course_of_ok
    (wellFormed : ∀ layout ∈ layouts, ∃ earlier, layout.WellFormed earlier)
    (small : stream.size < 2 ^ 53) {all : List StructureScan}
    (given : (scanLayouts session options stream layouts store log scanned).outcome = .ok all) :
    ∃ scans last, all = scanned ++ scans ∧ Scanned stream options layouts store scans last := by
  induction layouts generalizing store log scanned with
  | nil =>
      cases given
      exact ⟨[], store, (List.append_nil _).symm, .nil⟩
  | cons layout rest ih =>
      obtain ⟨earlier, valid⟩ := wellFormed layout (by simp)
      obtain ⟨pass, made⟩ := Pass.ofLayout_exists stream options valid
      obtain ⟨_, _, course, _⟩ :=
        Pass.run_course (Pass.ofLayout_faultless valid small made) session.threshold store
      cases raised : options.stopsAfter log with
      | true =>
          rw [scanLayouts, if_pos raised] at given
          contradiction
      | false =>
          rw [scanLayouts_cons made course raised] at given
          obtain ⟨scans, last, rfl, tail⟩ :=
            ih (fun other member => wellFormed other (by simp [member])) given
          exact ⟨_, last, List.append_assoc .., .cons made course tail⟩

theorem scan_course_of_ok {plan : Plan} (wellFormed : plan.WellFormed)
    (small : stream.size < 2 ^ 53) {scans : List StructureScan}
    (given : (plan.scan session stream options).outcome = .ok scans) :
    ∃ last, Scanned stream options plan.layouts .empty scans last := by
  obtain ⟨scans, last, rfl, scanned⟩ :=
    scanLayouts_course_of_ok (fun _ => wellFormed.layout) small given
  exact ⟨last, scanned⟩

theorem scan_course {plan : Plan} (wellFormed : plan.WellFormed) (small : stream.size < 2 ^ 53)
    (quiet : options.stopsAfter (plan.scan session stream options).log = false) :
    ∃ scans last, (plan.scan session stream options).outcome = .ok scans ∧
      Scanned stream options plan.layouts .empty scans last :=
  scanLayouts_course (fun _ => wellFormed.layout) small quiet

end Plan

namespace Scanned

variable {stream : Bytes} {options : Options} {layouts : List Layout} {store last : Store}
  {scans : List StructureScan} {layout : Layout} {scan : StructureScan} {index : Nat}

theorem watching (scanned : Scanned stream options layouts store scans last)
    (signal : Option Signal) : Scanned stream { options with signal } layouts store scans last := by
  induction scanned with
  | nil => exact .nil
  | cons made course tail ih =>
      exact .cons (Pass.ofLayout_watching made signal) (course.watching signal) ih

theorem names (scanned : Scanned stream options layouts store scans last) :
    scans.map StructureScan.structureName = layouts.map Layout.name := by
  induction scanned with
  | nil => rfl
  | cons made course tail ih =>
      rw [List.map_cons, List.map_cons, ih]
      rfl

theorem length_eq (scanned : Scanned stream options layouts store scans last) :
    scans.length = layouts.length := by
  have lengths := congrArg List.length scanned.names
  simpa only [List.length_map] using lengths

theorem named (scanned : Scanned stream options layouts store scans last)
    (distinct : (layouts.map Layout.name).Nodup) (declared : layouts[index]? = some layout)
    (given : scans[index]? = some scan) : StructureScan.named? scans layout.name = some scan := by
  have same : scan.structureName = layout.name := by
    have names := congrArg (fun names => names[index]?) scanned.names
    simpa [declared, given] using names
  have distinctScans : (scans.map StructureScan.structureName).Nodup := scanned.names ▸ distinct
  have found := List.find?_key distinctScans (List.mem_of_getElem? given)
  rwa [same] at found

theorem pass_at (scanned : Scanned stream options layouts store scans last)
    (declared : layouts[index]? = some layout) (given : scans[index]? = some scan) :
    ∃ middle pass events after,
      Scanned stream options (layouts.take index) store (scans.take index) middle ∧
      Pass.ofLayout layout stream options = .ok pass ∧
      pass.Course pass.start.toNat middle events after ∧
      scan = .ofEvents layout.name events := by
  induction scanned generalizing index with
  | nil => simp at declared
  | @cons head rest pass store middle last events scans made course tail ih =>
      cases index with
      | zero =>
          cases declared
          cases given
          exact ⟨store, pass, events, middle, .nil, made, course, rfl⟩
      | succ index =>
          obtain ⟨between, other, found, after, earlier, rest⟩ := ih declared given
          exact ⟨between, other, found, after, .cons made course earlier, rest⟩

theorem latestOf_elsewhere (scanned : Scanned stream options layouts store scans last)
    {name : String} (elsewhere : name ∉ layouts.map Layout.name) :
    last.latestOf name = store.latestOf name := by
  induction scanned with
  | nil => rfl
  | cons made course tail ih =>
      simp only [List.map_cons, List.mem_cons, not_or] at elsewhere
      rw [ih elsewhere.2, course.latestOf, (Pass.ofLayout_eq_ok made).1, if_neg elsewhere.1]

theorem latestOf (scanned : Scanned stream options layouts store scans last)
    (distinct : (layouts.map Layout.name).Nodup) (declared : layouts[index]? = some layout)
    (given : scans[index]? = some scan) :
    last.latestOf layout.name = scan.records.getLast?.or (store.latestOf layout.name) := by
  induction scanned generalizing index with
  | nil => simp at declared
  | @cons head rest pass store middle last events scans made course tail ih =>
      obtain ⟨fresh, distinctRest⟩ := List.nodup_cons.mp distinct
      have named := (Pass.ofLayout_eq_ok made).1
      cases index with
      | zero =>
          cases declared
          cases given
          rw [tail.latestOf_elsewhere fresh, course.latestOf, named, if_pos rfl]
          rfl
      | succ index =>
          have elsewhere : layout.name ≠ head.name := by
            rintro same
            exact fresh (same ▸ List.mem_map_of_mem (List.mem_of_getElem? declared))
          rw [ih distinctRest declared given, course.latestOf, named, if_neg elsewhere]

/-- From the empty store on, the pass of a structure begins with the last record of every structure
in front of it. -/
theorem before_pass (scanned : Scanned stream options layouts .empty scans last)
    (distinct : (layouts.map Layout.name).Nodup) (declared : layouts[index]? = some layout)
    (given : scans[index]? = some scan) :
    ∃ middle pass events after, Pass.ofLayout layout stream options = .ok pass ∧
      pass.Course pass.start.toNat middle events after ∧ scan = .ofEvents layout.name events ∧
      ∀ (front : Nat) (source : Layout) (earlier : StructureScan), front < index →
        layouts[front]? = some source → scans[front]? = some earlier →
        middle.latestOf source.name = earlier.records.getLast? := by
  obtain ⟨middle, pass, events, after, earlierScans, made, course, same⟩ :=
    scanned.pass_at declared given
  refine ⟨middle, pass, events, after, made, course, same, ?_⟩
  intro front source earlier before sourceDeclared earlierGiven
  have distinctFront : ((layouts.take index).map Layout.name).Nodup :=
    distinct.sublist ((List.take_sublist index layouts).map Layout.name)
  have sourceThere : (layouts.take index)[front]? = some source := by
    rwa [List.getElem?_take_of_lt before]
  have earlierThere : (scans.take index)[front]? = some earlier := by
    rwa [List.getElem?_take_of_lt before]
  rw [earlierScans.latestOf distinctFront sourceThere earlierThere]
  exact Option.or_none

end Scanned

/-- The names under which candidates are refused. -/
def DecodeError.names : List String :=
  ["UnexpectedEofError", "InvalidUtf8Error", "SizeOverflowError", "UnresolvedReferenceError",
    "OutOfBoundsError"]

theorem DecodeError.Cause.name_mem (cause : Cause) : cause.name ∈ names := by
  cases cause <;> simp [Cause.name, names]

theorem Layout.WellFormed.candidate_total {earlier : List Layout} {layout : Layout}
    (wellFormed : layout.WellFormed earlier) {stream : Bytes} (small : stream.size < 2 ^ 53)
    (maxSize : Int) (store : Store) {place : Nat}
    (occurs : layout.signature.OccursAt stream place) :
    (∃ record, layout.candidate stream maxSize store place = .ok record) ∨
      ∃ error, layout.candidate stream maxSize store place = .error (.refused error) ∧
        error.cause.name ∈ DecodeError.names := by
  rw [candidate_eq small wellFormed.admissible (occurs.inside wellFormed.signature.1)]
  cases readFields (layout.context maxSize store) stream layout.fields .empty
    (place + layout.signature.size : Nat) with
  | error error => exact .inr ⟨error, rfl, error.cause.name_mem⟩
  | ok fields => exact .inl ⟨_, rfl⟩

namespace Plan

/-- A scan that no signal stops gives one scan for each structure, in the order of declaration.
Every candidate that it may come to, with any store, is decoded or refused. -/
theorem scan_total {document : Document} {streamLength : Option Int} {plan : Plan}
    (compiled : ofDocument document streamLength = .ok plan) {stream : Bytes}
    (small : stream.size < 2 ^ 53) (options : Options) (session : Session)
    (quiet : options.stopsAfter (plan.scan session stream options).log = false) :
    (∃ scans, (plan.scan session stream options).outcome = .ok scans ∧
      scans.map StructureScan.structureName = plan.layouts.map Layout.name) ∧
    ∀ layout ∈ plan.layouts, ∃ pass, Pass.ofLayout layout stream options = .ok pass ∧
      ∀ (offset place : Nat) (store : Store),
        pass.signature.findFrom stream offset = some place →
        (∃ record, layout.candidate stream options.maxSize store place = .ok record) ∨
        ∃ error, layout.candidate stream options.maxSize store place = .error (.refused error) ∧
          error.cause.name ∈ DecodeError.names := by
  have wellFormed := wellFormed_ofDocument compiled
  constructor
  · obtain ⟨scans, _, outcome, scanned⟩ := scan_course wellFormed small quiet
    exact ⟨scans, outcome, scanned.names⟩
  · intro layout declared
    obtain ⟨earlier, valid⟩ := wellFormed.layout declared
    obtain ⟨pass, made⟩ := Pass.ofLayout_exists stream options valid
    refine ⟨pass, made, fun offset place store found => ?_⟩
    have occurs := (Signature.findFrom_eq_some found).1
    rw [(Pass.ofLayout_eq_ok made).2.1] at occurs
    exact valid.candidate_total small options.maxSize store occurs

/-- A note behind a block, and a second block that the stream ends in. -/
theorem scan_total_of_sample :
    ∃ scans, (Plan.scan ⟨.info, ⟨0⟩⟩ ⟨.big, [sampleBlock, sampleNote]⟩
        #[0x61, 0x61, 1, 0, 7, 0x62, 0, 0, 0x78, 0x61, 0x61, 9] .default).outcome = .ok scans ∧
      scans.map StructureScan.structureName = ["block", "note"] :=
  (scan_total ofDocument_sampleDocument (by decide) .default ⟨.info, ⟨0⟩⟩ rfl).1

end Plan

end Carve
