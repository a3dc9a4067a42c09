import Carve.Document.Check
import Carve.Scan

namespace Carve

/-- A document checked and planned once, to be run on any number of streams. -/
structure Query where
  plan : Plan
deriving Repr, DecidableEq

inductive LoadError where
  | invalid (issues : List Issue)
  | refused (error : PlanError)
  | fault (fault : Fault)
deriving Repr, DecidableEq

def LoadError.message : LoadError → String
  | .invalid issues => Document.refusalMessage issues
  | .refused error => error.message
  | .fault reason => reason.message

/-- Why a query has no answer for a stream. -/
inductive QueryError where
  | options (error : Options.Error)
  | scan (error : ScanError)
deriving Repr, DecidableEq

def QueryError.message : QueryError → String
  | .options error => error.message
  | .scan error => error.message

/-- The records of one structure in one stream, to be gone through any number of times, each time
with a store of its own.  There are none without a pass. -/
structure Sequence where
  pass : Option Pass

/-- A way through a sequence.  The search begins with the first record that is asked for. -/
structure Iteration where
  sequence : Sequence
  search : Option Pass.Search

namespace Sequence

def start (sequence : Sequence) : Iteration := { sequence, search := none }

/-- All records. -/
def records (sequence : Sequence) (threshold : Log.Level) : Logged (Except Fault (List Record)) :=
  match sequence.pass with
  | none => { log := [], outcome := .ok [] }
  | some pass =>
      let run := pass.run threshold none (pass.begin .empty)
      { log := pass.opening threshold ++ run.log.toList
        outcome :=
          match run.fault with
          | some fault => .error fault
          | none => .ok run.records }

end Sequence

/-- The next record, if there is one, and where the iteration stands then; after the last there is
none for good. -/
def Iteration.next (iteration : Iteration) (threshold : Log.Level) :
    Logged (Except Fault (Option Record)) × Iteration :=
  match iteration.sequence.pass with
  | none => ({ log := [], outcome := .ok none }, iteration)
  | some pass =>
      let opening := if iteration.search.isNone then pass.opening threshold else []
      let run := pass.run threshold (some 1) (iteration.search.getD (pass.begin .empty))
      let outcome :=
        match run.fault with
        | some fault => .error fault
        | none => .ok run.records.head?
      ({ log := opening ++ run.log.toList, outcome }, { iteration with search := some run.search })

namespace Query

/-- The query of an untrusted tree. -/
def ofTree (session : Session) (tree : Option Tree) (streamLength : Option Int) :
    Logged (Except LoadError Query) :=
  match Document.ofTree tree with
  | .error issues => { log := [], outcome := .error (.invalid issues) }
  | .ok document =>
      let built := Plan.build session document streamLength
      { log := built.log
        outcome :=
          match built.outcome with
          | .error (.refused error) => .error (.refused error)
          | .error (.fault fault) => .error (.fault fault)
          | .ok plan => .ok { plan } }

/-- The names of the structures, in the order in which they are scanned. -/
def names (query : Query) : List String := query.plan.layouts.map Layout.name

def layout? (query : Query) (name : String) : Option Layout :=
  query.plan.layouts.find? fun layout => layout.name = name

def scan (query : Query) (session : Session) (environment : List (String × String))
    (stream : Bytes) (options : Option Options.Given) :
    Logged (Except QueryError (List StructureScan)) :=
  match Options.resolve options environment with
  | .error error => { log := [], outcome := .error (.options error) }
  | .ok options =>
      let scanned := query.plan.scan session stream options
      { log := scanned.log, outcome := scanned.outcome.mapError .scan }

/-- The records of every structure by its name, in the order of the structures. -/
def records (query : Query) (session : Session) (environment : List (String × String))
    (stream : Bytes) (options : Option Options.Given) :
    Logged (Except QueryError (List (String × List Record))) :=
  let scanned := query.scan session environment stream options
  { log := scanned.log
    outcome := scanned.outcome.map fun scans =>
      scans.map fun scan => (scan.structureName, scan.records) }

/-- The records of one structure, no other being scanned first; references to other structures have
no value then.  For a name that is none the options are not looked at. -/
def sequence (query : Query) (environment : List (String × String)) (name : String)
    (stream : Bytes) (options : Option Options.Given) : Except QueryError Sequence :=
  match query.layout? name with
  | none => .ok { pass := none }
  | some layout =>
      match Options.resolve options environment with
      | .error error => .error (.options error)
      | .ok options =>
          match Pass.ofLayout layout stream options with
          | .error fault => .error (.scan (.fault fault))
          | .ok pass => .ok { pass := some pass }

end Query

end Carve
