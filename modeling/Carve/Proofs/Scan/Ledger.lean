import Carve.Proofs.Binary64.Rounding
import Carve.Proofs.Log.Level
import Carve.Proofs.Pass.Start
import Carve.Proofs.Scan.Results
import Carve.Proofs.Scan.Stopping

/-!
What is to be read in the log of a scan.

An entry says texts and whole numbers under names (`Log.Entry.Says`), the numbers exactly.  The log
of a scan with all levels is a ledger of what the scan gives (`Scanned.ledger`): there is an entry
for everything in the result, and for nothing else (`Query.scan_keeps_ledger`).
-/

namespace Carve

namespace Log

/-- Something that is read in an entry. -/
inductive Said where
  | text (text : String)
  | whole (number : Int)
  | number (number : Binary64)

/-- A whole number is read from a number that has just its value. -/
inductive Said.In : Said → Datum → Prop
  | text {text : String} : In (.text text) (.text text)
  | whole {count : Int} {number : Binary64} (exact : number.value? = some (count : ℚ)) :
      In (.whole count) (.number number)
  | number {number : Binary64} : In (.number number) (.number number)

/-- All that an entry says, in its order. -/
structure Entry.Says (entry : Entry) (level : Level) (message : String)
    (said : List (String × Said)) : Prop where
  level : entry.level = level
  message : entry.message = message
  data : ∃ data, entry.data = some data ∧
    List.Forall₂ (fun named datum => named.1 = datum.1 ∧ named.2.In datum.2) said data.entries

/-- The warning that a search is to begin behind the end of a stream. -/
def Entry.Warns (entry : Entry) (offset length : Int) : Prop :=
  entry.Says .warn
    s!"skip hint {Number.text offset} is past the stream end; clamped to {Number.text length}"
    [("offset", .whole offset), ("streamLength", .whole length)]

/-- The entry for a candidate that is no record. -/
def Entry.Rejects (entry : Entry) (rejection : Rejection) : Prop :=
  let place := Number.text rejection.signatureOffset
  entry.Says .debug
    s!"{rejection.structureName}: candidate at {place} rejected ({rejection.error.cause.name})"
    [("structure", .text rejection.structureName),
      ("signatureOffset", .whole rejection.signatureOffset),
      ("reason", .text rejection.error.message)]

/-- The entry behind the pass of a structure. -/
def Entry.Sums (entry : Entry) (scan : StructureScan) : Prop :=
  let found := Number.text scan.records.length
  let rejected := Number.text scan.rejected.length
  entry.Says .debug s!"{scan.structureName}: {found} match(es), {rejected} rejected"
    [("structure", .text scan.structureName), ("matches", .whole scan.records.length),
      ("rejected", .whole scan.rejected.length)]

/-- The entry behind a scan.  A number of structures above 2^53 is rounded. -/
def Entry.Ends (entry : Entry) (elapsed : Elapsed) (bytes structures : Nat) : Prop :=
  ∃ number : Binary64, number.Rounds false structures ∧
    (structures ≤ 2 ^ 53 → number.value? = some (structures : ℚ)) ∧
    entry.Says .debug s!"scanDocument: {elapsed.text}"
      [("bytes", .whole bytes), ("structures", .number number),
        ("durationMs", .number elapsed.milliseconds)]

/-- A pass warns once, or not at all if its search does not begin behind the end. -/
inductive Warned (length : Nat) : Option (Hint Int) → List Entry → Prop
  | once {offset : Int} {entry : Entry} (behind : length < offset)
      (warns : entry.Warns offset length) : Warned length (some (.skip offset)) [entry]
  | never {hint : Option (Hint Int)}
      (inside : ∀ offset, hint = some (.skip offset) → offset ≤ length) : Warned length hint []

/-- The entries for the scans of structures, one behind the other, and nothing else: the warning
about the hint, the rejections in their order, and the counts. -/
inductive Ledger (length : Nat) : List Layout → List StructureScan → List Entry → Prop
  | nil : Ledger length [] [] []
  | cons {layout : Layout} {layouts : List Layout} {scan : StructureScan}
      {scans : List StructureScan} {warnings rejections entries : List Entry} {summary : Entry}
      (named : scan.structureName = layout.name) (warned : Warned length layout.hint warnings)
      (rejected : List.Forall₂ Entry.Rejects rejections scan.rejected) (sums : summary.Sums scan)
      (rest : Ledger length layouts scans entries) :
      Ledger length (layout :: layouts) (scan :: scans)
        (warnings ++ rejections ++ summary :: entries)

theorem Said.In.plain {count : Int} (small : count.natAbs ≤ 2 ^ 53) :
    (Said.whole count).In (.plain count) :=
  .whole (Binary64.ofInt_exact small)

theorem Entry.skipClamped_warns {clamped : Hint.Clamped} (offset : clamped.offset.natAbs ≤ 2 ^ 53)
    (length : clamped.length.natAbs ≤ 2 ^ 53) :
    (skipClamped clamped).Warns clamped.offset clamped.length :=
  ⟨rfl, rfl, _, rfl, .cons ⟨rfl, .plain offset⟩ (.cons ⟨rfl, .plain length⟩ .nil)⟩

theorem Entry.entry_rejects {rejection : Rejection}
    (small : rejection.signatureOffset.natAbs ≤ 2 ^ 53) : rejection.entry.Rejects rejection :=
  ⟨rfl, rfl, _, rfl,
    .cons ⟨rfl, .text⟩ (.cons ⟨rfl, .plain small⟩ (.cons ⟨rfl, .text⟩ .nil))⟩

theorem Entry.summary_sums {scan : StructureScan} (records : scan.records.length ≤ 2 ^ 53)
    (rejected : scan.rejected.length ≤ 2 ^ 53) : scan.summary.Sums scan :=
  ⟨rfl, rfl, _, rfl,
    .cons ⟨rfl, .text⟩ (.cons ⟨rfl, .plain records⟩ (.cons ⟨rfl, .plain rejected⟩ .nil))⟩

theorem clamped_warned {hint : Option (Hint Int)} {length : Nat} (small : length ≤ 2 ^ 53)
    (safe : ∀ known ∈ hint, ∀ offset ∈ known.offset?, offset.natAbs ≤ 2 ^ 53) :
    Warned length hint ((Hint.clamped? hint length).map Entry.skipClamped).toList := by
  match hint with
  | none | some (.near _) => exact .never (by simp)
  | some (.skip offset) =>
      simp only [Hint.clamped?]
      split
      · next behind =>
          exact .once behind (Entry.skipClamped_warns (safe _ rfl offset rfl) small)
      · next inside =>
          refine .never fun other same => ?_
          cases same
          omega

end Log

open Log

namespace Scanned

variable {stream : Bytes} {options : Options} {layouts : List Layout} {store last : Store}
  {scans : List StructureScan}

theorem ledger (taken : Scanned stream options layouts store scans last)
    (small : stream.size < 2 ^ 53)
    (safe : ∀ layout ∈ layouts, ∀ hint ∈ layout.hint, ∀ offset ∈ hint.offset?,
      offset.natAbs ≤ 2 ^ 53) :
    Ledger stream.size layouts scans
      (StructureScan.passLogs scans layouts stream.size).flatten := by
  induction taken with
  | nil => exact .nil
  | @cons layout rest pass store middle last events scans made course tail ih =>
      obtain ⟨_, _, rfl, _⟩ := Pass.ofLayout_eq_ok made
      have counted := course.length_le
      have records := List.length_filterMap_le Pass.Event.record? events
      have rejected := List.length_filterMap_le Pass.Event.rejection? events
      have placed : ∀ rejection ∈ (StructureScan.ofEvents layout.name events).rejected,
          rejection.entry.Rejects rejection := by
        intro rejection present
        obtain ⟨place, same, _, occurs⟩ :=
          course.occurs _ (StructureScan.mem_rejected.mp present)
        have inside := occurs.inside (by simp [Signature.bytes])
        apply Entry.entry_rejects
        rw [show rejection.signatureOffset = place from same]
        omega
      rw [StructureScan.passLogs_cons, List.flatten_cons, StructureScan.entries,
        List.append_assoc _ [_]]
      apply Ledger.cons rfl
      · exact clamped_warned (Nat.le_of_lt small) (safe layout (.head _))
      · exact List.forall₂_map_left_iff.mpr (List.forall₂_same.mpr placed)
      · apply Entry.summary_sums
        · exact Nat.le_trans records (by omega)
        · exact Nat.le_trans rejected (by omega)
      · exact ih fun layout member => safe layout (.tail _ member)

/-- A signal that is quiet at the end of a scan was so at every boundary between two passes. -/
theorem quiet_boundary {elapsed : Elapsed} {log : List Entry} {scanned : List StructureScan}
    (taken : Scanned stream options layouts store scans last)
    (quiet : options.stopsAfter (Plan.scanLayouts ⟨.debug, elapsed⟩ options stream layouts store log
      scanned).log = false) (count : Nat) :
    options.stopsAfter
      (log ++ ((StructureScan.passLogs scans layouts stream.size).take count).flatten) = false := by
  let session : Session := ⟨.debug, elapsed⟩
  induction count using Nat.strong_induction_on with
  | _ count ih =>
      obtain ⟨middle, reached⟩ : ∃ middle,
          Plan.scanLayouts session options stream layouts store log scanned =
            Plan.scanLayouts session options stream (layouts.drop count) middle _ _ :=
        taken.scan_reaches ih
      have further : options.stopsAfter _ = false := reached ▸ quiet
      exact Plan.quiet_before further

end Scanned

theorem Session.timing_ends (elapsed : Elapsed) {bytes : Nat} (small : bytes ≤ 2 ^ 53)
    (structures : Nat) :
    ∃ entry : Entry, entry.Ends elapsed bytes structures ∧
      Session.timing ⟨.debug, elapsed⟩ "scanDocument"
        [("bytes", bytes), ("structures", structures)] = [entry] := by
  refine ⟨_, ⟨.ofInt structures, ?_, fun bound => ?_, rfl, rfl, _, rfl, ?_⟩, rfl⟩
  · have positive : decide ((structures : Int) < 0) = false := decide_eq_false (by omega)
    have rounds := Binary64.ofInt_rounds structures
    rwa [positive, Int.natAbs_natCast] at rounds
  · have exact : (Binary64.ofInt structures).value? = some ((structures : Int) : ℚ) :=
      Binary64.ofInt_exact (by simpa using bound)
    rwa [Int.cast_natCast] at exact
  · exact .cons ⟨rfl, .plain (by simpa using small)⟩
      (.cons ⟨rfl, .number⟩ (.cons ⟨rfl, .number⟩ .nil))

theorem Plan.hints_safe {document : Document} {streamLength : Option Int} {plan : Plan}
    (compiled : ofDocument document streamLength = .ok plan) :
    ∀ layout ∈ plan.layouts, ∀ hint ∈ layout.hint, ∀ offset ∈ hint.offset?,
      offset.natAbs ≤ 2 ^ 53 := by
  intro layout declared hint hinted offset there
  obtain ⟨constants, _, each⟩ := ofDocument_compiled compiled
  obtain ⟨declaration, _, compiles⟩ := each.declaration_exists declared
  have bounds := compiles.hint_offset hint hinted offset there
  have safe : Number.maxSafe = 2 ^ 53 - 1 := rfl
  omega

/-- With all levels logged, and no signal raised by its end, a scan keeps a ledger of its result: an
entry for each hint behind the end of the stream, for each rejection in its place, and with the
counts of each structure, and one more for the whole scan. -/
theorem Query.scan_keeps_ledger {document : Document} {streamLength : Option Int} {plan : Plan}
    (compiled : Plan.ofDocument document streamLength = .ok plan) {stream : Bytes}
    (small : stream.size < 2 ^ 53) {explicit : Option Options.Given}
    {environment : List (String × String)} {options : Options}
    (valid : Options.resolve explicit environment = .ok options) {elapsed : Elapsed}
    (quiet : options.stopsAfter
      (Query.scan ⟨plan⟩ ⟨.debug, elapsed⟩ environment stream explicit).log = false) :
    ∃ (scans : List StructureScan) (entries : List Entry) (final : Entry),
      Query.scan ⟨plan⟩ ⟨.debug, elapsed⟩ environment stream explicit =
        { log := entries ++ [final], outcome := .ok scans } ∧
      scans.map StructureScan.structureName = document.structures.map Declaration.name ∧
      Ledger stream.size plan.layouts scans entries ∧
      final.Ends elapsed stream.size scans.length := by
  obtain ⟨_, _, each⟩ := Plan.ofDocument_compiled compiled
  simp only [scan, valid] at quiet ⊢
  let session : Session := ⟨.debug, elapsed⟩
  have silent : options.stopsAfter (plan.scan session stream options).log = false := quiet
  obtain ⟨scans, last, _, taken⟩ :=
    Plan.scan_course (Plan.wellFormed_ofDocument compiled) small silent
  obtain ⟨final, ends, timing⟩ :=
    Session.timing_ends elapsed (Nat.le_of_lt small) scans.length
  have completed : plan.scan session stream options = _ :=
    taken.scan_completes fun earlier _ => taken.quiet_boundary quiet earlier
  refine ⟨scans, _, final, ?_, taken.names.trans each.names,
    taken.ledger small (Plan.hints_safe compiled), ends⟩
  rw [completed]
  simp only [List.nil_append, timing]
  rfl

/-- A mark that is looked for behind the end of the stream, and a block that is cut off. -/
theorem Query.scan_keeps_ledger_sample :
    let document : Document :=
      ⟨some .big, none, sampleSkipping.structures ++ Plan.sampleDocument.structures⟩
    let plan : Plan :=
      ⟨.big, [{ sampleSkippingLayout with byteOrder := .big }, Plan.sampleBlock, Plan.sampleNote]⟩
    let scans : List StructureScan :=
      [⟨"mark", [], []⟩, ⟨"block", [], [⟨"block", 0, ⟨"size", 2, .unexpectedEnd 1 0⟩⟩]⟩,
        ⟨"note", [], []⟩]
    Plan.ofDocument document none = .ok plan ∧ Options.resolve none [] = .ok .default ∧
      ∃ (entries : List Entry) (final : Entry),
        Query.scan ⟨plan⟩ ⟨.debug, ⟨7⟩⟩ [] #[0x61, 0x61] none =
          { log := entries ++ [final], outcome := .ok scans } ∧
        Ledger 2 plan.layouts scans entries ∧ final.Ends ⟨7⟩ 2 3 := by
  intro document plan scans
  have compiled : Plan.ofDocument document none = .ok plan := rfl
  have valid : Options.resolve none [] = .ok .default := rfl
  have small : (#[0x61, 0x61] : Bytes).size < 2 ^ 53 := by decide
  have quiet : Options.default.stopsAfter
      (Query.scan ⟨plan⟩ ⟨.debug, ⟨7⟩⟩ [] #[0x61, 0x61] none).log = false := rfl
  obtain ⟨given, entries, final, scanned, _, ledger, ends⟩ :=
    scan_keeps_ledger compiled small valid quiet
  have outcome : (Query.scan ⟨plan⟩ ⟨.debug, ⟨7⟩⟩ [] #[0x61, 0x61] none).outcome =
      .ok scans := by
    decide +kernel
  have same : given = scans := by
    rw [scanned] at outcome
    exact Except.ok.inj outcome
  subst same
  exact ⟨compiled, valid, entries, final, scanned, ledger, ends⟩

end Carve
