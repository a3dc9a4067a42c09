import Carve.Pass
import Carve.Plan

/-!
Scanning a stream with all structures of a plan, in the order of their declaration.

A later structure may refer to the latest record of an earlier one, so the passes share one store,
which starts empty.  The signal, if there is one, is looked at before each pass and at no other
time.
-/

namespace Carve

/-- What surrounds an operation: the level of the log and the clock. -/
structure Session where
  threshold : Log.Level
  /-- The time that the operation takes. -/
  elapsed : Log.Elapsed

/-- The outcome of an operation with the entries that it has written. -/
structure Logged (α : Type) where
  log : List Log.Entry
  outcome : α

/-- The entry behind a finished operation: how long it took, and some counts. -/
def Session.timing (session : Session) (label : String) (counts : List (String × Nat)) :
    List Log.Entry :=
  Log.written session.threshold
    (.timed label session.elapsed (.ofList (counts.map fun (name, count) => (name, .plain count))))

namespace Plan

def build (session : Session) (document : Document) (streamLength : Option Int) :
    Logged (Except PlanFailure Plan) :=
  match ofDocument document streamLength with
  | .error failure => { log := [], outcome := .error failure }
  | .ok plan =>
      { log := session.timing "buildPlan"
          [("structures", plan.layouts.length),
            ("constants", (document.constants.getD []).length)]
        outcome := .ok plan }

end Plan

structure StructureScan where
  structureName : String
  records : List Record
  rejected : List Rejection
deriving Repr, DecidableEq

def StructureScan.summary (scan : StructureScan) : Log.Entry :=
  .structureScanned scan.structureName scan.records.length scan.rejected.length

inductive ScanError where
  /-- The structures named had been scanned when the signal was found raised. -/
  | aborted (completed : List String)
  | fault (fault : Fault)
deriving Repr, DecidableEq

def ScanError.message : ScanError → String
  | .aborted completed => s!"Scan aborted after {completed.length} structure(s)"
  | .fault reason => reason.message

namespace Plan

/-- Scans for the layouts that are left, `scanned` being what the ones before them have given. -/
def scanLayouts (session : Session) (options : Options) (stream : Bytes) :
    List Layout → Store → List Log.Entry → List StructureScan →
      Logged (Except ScanError (List StructureScan))
  | [], _, log, scanned =>
      { log := log ++ session.timing "scanDocument"
          [("bytes", stream.size), ("structures", scanned.length)]
        outcome := .ok scanned }
  | layout :: rest, store, log, scanned =>
      if options.stopsAfter log then
        { log, outcome := .error (.aborted (scanned.map StructureScan.structureName)) }
      else
        match Pass.ofLayout layout stream options with
        | .error fault => { log, outcome := .error (.fault fault) }
        | .ok pass =>
            let run := pass.run session.threshold none (pass.begin store)
            let passed := log ++ pass.opening session.threshold ++ run.log.toList
            match run.fault with
            | some fault => { log := passed, outcome := .error (.fault fault) }
            | none =>
                let scan : StructureScan :=
                  { structureName := layout.name
                    records := run.records
                    rejected := run.rejected }
                scanLayouts session options stream rest run.search.store
                  (passed ++ Log.written session.threshold scan.summary) (scanned ++ [scan])

def scan (session : Session) (plan : Plan) (stream : Bytes) (options : Options) :
    Logged (Except ScanError (List StructureScan)) :=
  scanLayouts session options stream plan.layouts .empty [] []

end Plan

end Carve
