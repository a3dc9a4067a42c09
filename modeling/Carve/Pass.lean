import Carve.Options
import Carve.Signature

/-!
Passes: the search of one stream for the records of one structure.

A pass goes from one occurrence of the signature to the next and decodes the candidate there.  A
candidate that cannot be decoded is rejected and the search goes on one byte further, for a
signature may stand inside other data by accident; after a record it goes on behind the signature.
Each record is committed to the store before it is given out.  A pass can be left after any record
and taken up again.
-/

namespace Carve

structure Rejection where
  structureName : String
  signatureOffset : Int
  error : DecodeError
deriving Repr, DecidableEq

def Rejection.entry (rejection : Rejection) : Log.Entry :=
  .rejected rejection.structureName rejection.signatureOffset rejection.error.cause.name
    rejection.error.message

/-- One structure's search through one stream. -/
structure Pass where
  layout : Layout
  signature : Signature
  stream : Bytes
  options : Options

namespace Pass

/-- What became of a candidate. -/
inductive Event where
  | found (record : Record)
  | rejected (rejection : Rejection)
deriving Repr, DecidableEq

namespace Event

def record? : Event → Option Record
  | .found record => some record
  | .rejected _ => none

def rejection? : Event → Option Rejection
  | .found _ => none
  | .rejected rejection => some rejection

/-- How far behind the candidate the search goes on. -/
def stride (signature : Signature) : Event → Nat
  | .found _ => signature.size
  | .rejected _ => 1

theorem stride_pos (signature : Signature) (event : Event) : 0 < event.stride signature := by
  cases event <;> simp [stride, Signature.size]

/-- The store behind the candidate. -/
def commit (store : Store) : Event → Store
  | .found record => store.commit record
  | .rejected _ => store

/-- How many records are still wanted behind the candidate. -/
def countdown (limit : Option Nat) : Event → Option Nat
  | .found _ => limit.map (· - 1)
  | .rejected _ => limit

def log (threshold : Log.Level) : Event → List Log.Entry
  | .found _ => []
  | .rejected rejection => Log.written threshold rejection.entry

end Event

/-- Where a pass stands: the offset at which it goes on, if it does, and the records so far. -/
structure Search where
  offset : Option Nat
  store : Store
deriving Repr, DecidableEq

/-- What a pass has done, in order, and where it stands now. -/
structure Run where
  events : Array Event
  log : Array Log.Entry
  search : Search
  fault : Option Fault

def Run.records (run : Run) : List Record := run.events.toList.filterMap Event.record?

def Run.rejected (run : Run) : List Rejection := run.events.toList.filterMap Event.rejection?

def ofLayout (layout : Layout) (stream : Bytes) (options : Options) : Except Fault Pass :=
  match Signature.ofBytes layout.signature with
  | .error fault => .error fault
  | .ok signature => .ok { layout, signature, stream, options }

/-- The offset at which the search begins. -/
def start (pass : Pass) : Int :=
  Hint.start pass.layout.hint pass.stream.size (pass.layout.window pass.options.nearMargin)

/-- What is logged before the search begins. -/
def opening (pass : Pass) (threshold : Log.Level) : List Log.Entry :=
  match Hint.clamped? pass.layout.hint pass.stream.size with
  | some clamped => Log.written threshold (.skipClamped clamped)
  | none => []

/-- Decodes the candidate whose signature begins at an offset. -/
def examine (pass : Pass) (store : Store) (place : Nat) : Except Fault Event :=
  match pass.layout.candidate pass.stream pass.options.maxSize store place with
  | .ok record => .ok (.found record)
  | .error (.refused error) =>
      .ok (.rejected { structureName := pass.layout.name, signatureOffset := place, error })
  | .error (.fault fault) => .error fault

/-- Goes on from an offset until `limit` records have been found, or to the end of the stream. -/
def runFrom (pass : Pass) (threshold : Log.Level) (limit : Option Nat) (offset : Nat)
    (store : Store) (events : Array Event) (log : Array Log.Entry) : Run :=
  if limit = some 0 then
    { events, log, search := { offset := some offset, store }, fault := none }
  else
    match _found : pass.signature.findFrom pass.stream offset with
    | none => { events, log, search := { offset := none, store }, fault := none }
    | some place =>
        match pass.examine store place with
        | .error fault =>
            { events, log, search := { offset := none, store }, fault := some fault }
        | .ok event =>
            pass.runFrom threshold (event.countdown limit) (place + event.stride pass.signature)
              (event.commit store) (events.push event) (log ++ event.log threshold)
termination_by pass.stream.size - offset
decreasing_by
  have bounds := Signature.findFrom_bounds _found
  have forward := event.stride_pos pass.signature
  simp only [Signature.size] at bounds
  omega

/-- Where a pass stands before it has looked for anything. -/
def begin (pass : Pass) (store : Store) : Search := { offset := some pass.start.toNat, store }

/-- Goes on from where a pass stands. -/
def run (pass : Pass) (threshold : Log.Level) (limit : Option Nat) (search : Search) : Run :=
  match search.offset with
  | none => { events := #[], log := #[], search, fault := none }
  | some offset => pass.runFrom threshold limit offset search.store #[] #[]

end Pass

end Carve
