import Carve.Proofs.Scan.Course
import Mathlib.Data.List.Infix

/-!
Stopping a scan.

When nothing is held back, the entries of a pass can be told from what it gives: the warning about
its hint, its rejections in their order, and the summary (`StructureScan.entries`).  A scan logs
those of its passes one behind the other (`Scanned.scan_reaches`).

A signal may be raised at any entry that is logged, but it is found raised only at the boundaries
between passes.  So the pass that is under way comes to its end, and of the log of a whole scan the
part up to that boundary is left (`Plan.scan_stops_between_passes`).
-/

namespace Carve

/-- What the pass of a layout through a stream of this length logs. -/
def StructureScan.entries (scan : StructureScan) (layout : Layout) (length : Nat) :
    List Log.Entry :=
  ((Hint.clamped? layout.hint length).map Log.Entry.skipClamped).toList ++
    scan.rejected.map Rejection.entry ++ [scan.summary]

/-- What the passes of layouts log, one list for each. -/
def StructureScan.passLogs (scans : List StructureScan) (layouts : List Layout) (length : Nat) :
    List (List Log.Entry) :=
  List.zipWith (fun scan layout => scan.entries layout length) scans layouts

@[simp] theorem StructureScan.passLogs_nil (length : Nat) : passLogs [] [] length = [] := rfl

@[simp] theorem StructureScan.passLogs_cons (scan : StructureScan) (scans : List StructureScan)
    (layout : Layout) (layouts : List Layout) (length : Nat) :
    passLogs (scan :: scans) (layout :: layouts) length =
      scan.entries layout length :: passLogs scans layouts length := rfl

namespace Pass

theorem opening_debug (pass : Pass) :
    pass.opening .debug =
      ((Hint.clamped? pass.layout.hint pass.stream.size).map Log.Entry.skipClamped).toList := by
  rw [opening]
  cases Hint.clamped? pass.layout.hint pass.stream.size <;> rfl

theorem Event.logs_debug (events : List Event) :
    events.flatMap (Event.log .debug) =
      (events.filterMap Event.rejection?).map Rejection.entry := by
  induction events with
  | nil => rfl
  | cons event events ih =>
      rw [List.flatMap_cons, ih]
      cases event <;> rfl

end Pass

section Scan

variable {elapsed : Log.Elapsed} {stream : Bytes} {options : Options}
  {layouts : List Layout} {store last : Store} {scans scanned : List StructureScan}
  {log : List Log.Entry}

theorem Plan.scanLayouts_logs {layout : Layout} {pass : Pass} {events : List Pass.Event}
    (made : Pass.ofLayout layout stream options = .ok pass)
    (course : pass.Course pass.start.toNat store events last)
    (quiet : options.stopsAfter log = false) :
    scanLayouts ⟨.debug, elapsed⟩ options stream (layout :: layouts) store log scanned =
      scanLayouts ⟨.debug, elapsed⟩ options stream layouts last
        (log ++ (StructureScan.ofEvents layout.name events).entries layout stream.size)
        (scanned ++ [.ofEvents layout.name events]) := by
  rw [scanLayouts_cons made course quiet, pass.opening_debug, Pass.Event.logs_debug]
  obtain ⟨rfl, _, rfl, _⟩ := Pass.ofLayout_eq_ok made
  simp only [List.append_assoc, StructureScan.entries]
  rfl

theorem Scanned.length_passLogs (taken : Scanned stream options layouts store scans last) :
    (StructureScan.passLogs scans layouts stream.size).length = layouts.length := by
  rw [StructureScan.passLogs, List.length_zipWith, taken.length_eq, Nat.min_self]

/-- A scan gets to the boundary behind `count` passes if the signal is not raised at a boundary in
front of it. -/
theorem Scanned.scan_reaches (taken : Scanned stream options layouts store scans last) {count : Nat}
    (quiet : ∀ earlier < count, options.stopsAfter
      (log ++ ((StructureScan.passLogs scans layouts stream.size).take earlier).flatten) = false) :
    ∃ middle, Plan.scanLayouts ⟨.debug, elapsed⟩ options stream layouts store log scanned =
      Plan.scanLayouts ⟨.debug, elapsed⟩ options stream (layouts.drop count) middle
        (log ++ ((StructureScan.passLogs scans layouts stream.size).take count).flatten)
        (scanned ++ scans.take count) := by
  induction taken generalizing log scanned count with
  | @nil store => exact ⟨store, by simp⟩
  | @cons layout rest pass store middle last events scans made course tail ih =>
      cases count with
      | zero => exact ⟨store, by simp⟩
      | succ count =>
          let scan := StructureScan.ofEvents layout.name events
          have silent : options.stopsAfter log = false := by
            simpa using quiet 0 (Nat.succ_pos count)
          have quietBehind : ∀ earlier < count, options.stopsAfter
              (log ++ scan.entries layout stream.size ++
                ((StructureScan.passLogs scans rest stream.size).take earlier).flatten) =
              false := by
            intro earlier before
            simpa using quiet (earlier + 1) (Nat.succ_lt_succ before)
          obtain ⟨middle, reached⟩ := @ih (scanned ++ [scan]) _ count quietBehind
          refine ⟨middle, ?_⟩
          rw [Plan.scanLayouts_logs made course silent, reached]
          simp [scan]

end Scan

/-- The signal becomes raised at one of the entries `during`, the ones in front being `before`. -/
def Signal.RaisedDuring (signal : Signal) (before during : List Log.Entry) : Prop :=
  ∃ inner entry behind, during = inner ++ entry :: behind ∧
    signal.raisedAfter (before ++ inner) = false ∧
    signal.raisedAfter (before ++ inner ++ [entry]) = true

namespace Signal.RaisedDuring

variable {signal : Signal} {before during : List Log.Entry}

theorem quiet_before (raised : signal.RaisedDuring before during) :
    signal.raisedAfter before = false := by
  obtain ⟨inner, _, _, _, quiet, _⟩ := raised
  exact signal.quiet_of_prefix (List.prefix_append before inner) quiet

theorem raised_behind (raised : signal.RaisedDuring before during) :
    signal.raisedAfter (before ++ during) = true := by
  obtain ⟨inner, entry, behind, rfl, _, raised⟩ := raised
  have stays := signal.stays _ behind raised
  rwa [List.append_assoc, List.append_assoc] at stays

end Signal.RaisedDuring

namespace Scanned

variable {elapsed : Log.Elapsed} {stream : Bytes} {options : Options}
  {layouts : List Layout} {store last : Store} {scans scanned : List StructureScan}
  {log : List Log.Entry}

theorem scan_completes (taken : Scanned stream options layouts store scans last)
    (quiet : ∀ earlier < layouts.length, options.stopsAfter
      (log ++ ((StructureScan.passLogs scans layouts stream.size).take earlier).flatten) = false) :
    Plan.scanLayouts ⟨.debug, elapsed⟩ options stream layouts store log scanned =
      { log := log ++ (StructureScan.passLogs scans layouts stream.size).flatten ++
          Session.timing ⟨.debug, elapsed⟩ "scanDocument"
            [("bytes", stream.size), ("structures", (scanned ++ scans).length)]
        outcome := .ok (scanned ++ scans) } := by
  obtain ⟨middle, reached⟩ := taken.scan_reaches quiet
  rw [reached, List.drop_length, Plan.scanLayouts,
    List.take_of_length_le (Nat.le_of_eq taken.length_passLogs),
    List.take_of_length_le (Nat.le_of_eq taken.length_eq)]

theorem scan_stops (taken : Scanned stream options layouts store scans last) {count : Nat}
    (inside : count < layouts.length)
    (quiet : ∀ earlier < count, options.stopsAfter
      (log ++ ((StructureScan.passLogs scans layouts stream.size).take earlier).flatten) = false)
    (raised : options.stopsAfter
      (log ++ ((StructureScan.passLogs scans layouts stream.size).take count).flatten) = true) :
    Plan.scanLayouts ⟨.debug, elapsed⟩ options stream layouts store log scanned =
      { log := log ++ ((StructureScan.passLogs scans layouts stream.size).take count).flatten
        outcome := .error (.aborted
          ((scanned ++ scans.take count).map StructureScan.structureName)) } := by
  obtain ⟨middle, reached⟩ := taken.scan_reaches quiet
  rw [reached, List.drop_eq_getElem_cons inside, Plan.scanLayouts, if_pos raised]

end Scanned

namespace Plan

/-- With all levels logged, a signal raised in front of the first pass stops a scan at once.  One
that becomes raised during a pass stops it when that pass is at its end, with the log of a whole
scan up to there; during the last pass it comes too late. -/
theorem scan_stops_between_passes {document : Document} {streamLength : Option Int} {plan : Plan}
    (compiled : ofDocument document streamLength = .ok plan) {stream : Bytes}
    (small : stream.size < 2 ^ 53) (options : Options) (elapsed : Log.Elapsed) :
    let whole := plan.scan ⟨.debug, elapsed⟩ stream { options with signal := none }
    ∃ scans, whole.outcome = .ok scans ∧
      scans.map StructureScan.structureName = plan.layouts.map Layout.name ∧
      let passLogs := StructureScan.passLogs scans plan.layouts stream.size
      whole.log = passLogs.flatten ++ Session.timing ⟨.debug, elapsed⟩ "scanDocument"
        [("bytes", stream.size), ("structures", scans.length)] ∧
      ∀ signal : Signal,
        let stopped := plan.scan ⟨.debug, elapsed⟩ stream { options with signal := some signal }
        (signal.raisedAfter [] = true → plan.layouts ≠ [] →
          stopped = { log := [], outcome := .error (.aborted []) }) ∧
        ∀ (index : Nat) (passLog : List Log.Entry), passLogs[index]? = some passLog →
          signal.RaisedDuring (passLogs.take index).flatten passLog →
          (index + 1 < plan.layouts.length →
            stopped =
              { log := (passLogs.take (index + 1)).flatten
                outcome := .error (.aborted ((plan.layouts.map Layout.name).take (index + 1))) }) ∧
          (index + 1 = plan.layouts.length → stopped = whole) := by
  intro whole
  have quiet : { options with signal := none }.stopsAfter whole.log = false := rfl
  obtain ⟨scans, last, outcome, taken⟩ := scan_course (wellFormed_ofDocument compiled) small quiet
  have completed : whole = _ := taken.scan_completes fun _ _ => rfl
  refine ⟨scans, outcome, taken.names, ?_⟩
  intro passLogs
  refine ⟨congrArg Logged.log completed, fun signal => ?_⟩
  have watched := taken.watching (some signal)
  refine ⟨?_, ?_⟩
  · intro raised present
    have some : 0 < plan.layouts.length := List.length_pos_iff.mpr present
    exact watched.scan_stops some (fun _ before => absurd before (Nat.not_lt_zero _)) raised
  · intro index passLog there raised
    have behind : (passLogs.take (index + 1)).flatten =
        (passLogs.take index).flatten ++ passLog := by
      rw [List.take_add_one, there, List.flatten_append, Option.toList_some, List.flatten_singleton]
    have quiet : ∀ earlier < index + 1,
        signal.raisedAfter (passLogs.take earlier).flatten = false := by
      intro earlier before
      refine signal.quiet_of_prefix ?_ raised.quiet_before
      exact (List.take_prefix_take_left (Nat.le_of_lt_succ before)).flatten
    refine ⟨fun inside => ?_, fun final => ?_⟩
    · have names : (scans.take (index + 1)).map StructureScan.structureName =
          (plan.layouts.map Layout.name).take (index + 1) := by
        rw [List.map_take, taken.names]
      rw [← names]
      exact watched.scan_stops inside quiet (behind ▸ raised.raised_behind)
    · rw [completed]
      exact watched.scan_completes (final ▸ quiet)

/-- A signal raised at the rejection of a block that is cut off: the summary of the blocks is still
logged, and notes are not looked for. -/
theorem scan_stops_between_passes_sample :
    let cutOff : Rejection := ⟨"block", 0, ⟨"size", 2, .unexpectedEnd 1 0⟩⟩
    let signal : Signal := .onMessage "block: candidate at 0 rejected (UnexpectedEofError)"
    Plan.scan ⟨.debug, ⟨0⟩⟩ ⟨.big, [sampleBlock, sampleNote]⟩ #[0x61, 0x61]
        { Options.default with signal := some signal } =
      { log := [cutOff.entry, .structureScanned "block" 0 1]
        outcome := .error (.aborted ["block"]) } := by
  intro cutOff signal
  have small : (#[0x61, 0x61] : Bytes).size < 2 ^ 53 := by decide
  obtain ⟨scans, outcome, _, _, stops⟩ :=
    scan_stops_between_passes ofDocument_sampleDocument small .default ⟨0⟩
  have whole : (Plan.scan ⟨.debug, ⟨0⟩⟩ ⟨.big, [sampleBlock, sampleNote]⟩
      #[0x61, 0x61] .default).outcome = .ok [⟨"block", [], [cutOff]⟩, ⟨"note", [], []⟩] := by
    decide +kernel
  cases whole.symm.trans outcome
  have raised : signal.RaisedDuring [] [cutOff.entry, .structureScanned "block" 0 1] :=
    ⟨[], cutOff.entry, _, rfl, rfl, by decide +kernel⟩
  exact ((stops signal).2 0 _ rfl raised).1 (by decide)

end Plan

end Carve
