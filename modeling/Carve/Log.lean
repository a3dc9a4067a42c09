import Carve.Layout
import Carve.Text

namespace Carve.Log

inductive Datum where
  | null
  | boolean (value : Bool)
  | number (number : Binary64)
  | integer (number : Int)
  | text (text : String)
  | list (items : List Datum)
  | object (members : List (String × Datum))
deriving Repr, Inhabited

namespace Datum

def plain (number : Int) : Datum := .number (.ofInt number)

def numberText : Binary64 → String
  | .infinite _ | .nan => "null"
  | value => value.text

/-- The text of an object, from the texts of its members. -/
def objectText (members : List (String × String)) : String :=
  let ordered := KeyOrder.arrange (Table.ofList members).entries
  let texts := ordered.map fun member => Text.Quoted.encode member.1 ++ ":" ++ member.2
  "\x7b" ++ String.intercalate "," texts ++ "\x7d"

mutual

def render : Datum → String
  | .null => "null"
  | .boolean value => if value then "true" else "false"
  | .number value => numberText value
  | .integer value => Text.Quoted.encode s!"{value}"
  | .text value => Text.Quoted.encode value
  | .list items => "[" ++ String.intercalate "," (renderItems items) ++ "]"
  | .object members => objectText (renderMembers members)

def renderItems : List Datum → List String
  | [] => []
  | item :: rest => render item :: renderItems rest

def renderMembers : List (String × Datum) → List (String × String)
  | [] => []
  | (name, item) :: rest => (name, render item) :: renderMembers rest

end

end Datum

inductive Level where
  | debug
  | info
  | warn
  | error
deriving Repr, DecidableEq

namespace Level

def name : Level → String
  | .debug => "debug"
  | .info => "info"
  | .warn => "warn"
  | .error => "error"

def rank : Level → Nat
  | .debug => 0
  | .info => 1
  | .warn => 2
  | .error => 3

def ofName? (name : String) : Option Level :=
  [debug, info, warn, error].find? fun level => level.name = name

/-- Whether entries of a level are let through when the log is set to `threshold`. -/
def admits (threshold level : Level) : Bool := threshold.rank ≤ level.rank

/-- The level that a flag asks for, `info` if it asks for none. -/
def ofFlag : Option String → Level
  | some "1" | some "true" => .debug
  | some "warn" => .warn
  | some "error" => .error
  | _ => .info

end Level

structure Entry where
  level : Level
  message : String
  data : Option (Table Datum)
deriving Repr

namespace Entry

/-- The entry as one printed line. -/
def line (entry : Entry) : String :=
  let head := "[streamq] " ++ entry.message
  match entry.data with
  | none => head
  | some data => head ++ " " ++ (Datum.object data.entries).render

def debug (message : String) (data : Option (Table Datum)) : Entry :=
  { level := .debug, message, data }

def warn (message : String) (data : Option (Table Datum)) : Entry :=
  { level := .warn, message, data }

def rejected (structureName : String) (signatureOffset : Int) (errorName reason : String) : Entry :=
  .debug s!"{structureName}: candidate at {Number.text signatureOffset} rejected ({errorName})"
    (some (.ofList [("structure", .text structureName), ("signatureOffset", .plain signatureOffset),
      ("reason", .text reason)]))

def structureScanned (structureName : String) (found rejected : Int) : Entry :=
  .debug s!"{structureName}: {Number.text found} match(es), {Number.text rejected} rejected"
    (some (.ofList [("structure", .text structureName), ("matches", .plain found),
      ("rejected", .plain rejected)]))

def skipClamped (clamped : Hint.Clamped) : Entry :=
  let offset := Number.text clamped.offset
  let length := Number.text clamped.length
  .warn s!"skip hint {offset} is past the stream end; clamped to {length}"
    (some (.ofList [("offset", .plain clamped.offset), ("streamLength", .plain clamped.length)]))

end Entry

/-- A span of time in hundredths of a millisecond. -/
structure Elapsed where
  hundredths : Nat
deriving Repr, DecidableEq

namespace Elapsed

/-- Milliseconds with two places. -/
def text (elapsed : Elapsed) : String :=
  let whole := Nat.repr (elapsed.hundredths / 100)
  let tenth := Nat.repr (elapsed.hundredths / 10 % 10)
  let hundredth := Nat.repr (elapsed.hundredths % 10)
  s!"{whole}.{tenth}{hundredth}ms"

def milliseconds (elapsed : Elapsed) : Binary64 := .ofRatio false elapsed.hundredths 100

end Elapsed

/-- What a labelled piece of work has taken, after the data that it ends with. -/
def Entry.timed (label : String) (elapsed : Elapsed) (data : Table Datum) : Entry :=
  .debug s!"{label}: {elapsed.text}"
    (some (data.insert "durationMs" (.number elapsed.milliseconds)))

/-- The entries of which one gets through a threshold. -/
def written (threshold : Level) (entry : Entry) : List Entry :=
  if threshold.admits entry.level then [entry] else []

structure Subscriber where
  id : String
  /-- The message that the subscriber fails with on every entry. -/
  failure : Option String
deriving Repr, DecidableEq

structure Logger where
  level : Level
  subscribers : List Subscriber
deriving Repr, DecidableEq

structure Printed where
  level : Level
  text : String
deriving Repr, DecidableEq

/-- What one entry causes. -/
structure Delivery where
  printed : List Printed
  /-- The subscribers that were handed the entry. -/
  received : List (String × Entry)

namespace Logger

def start : Logger := { level := .info, subscribers := [] }

def isDebug (logger : Logger) : Bool := logger.level = .debug

def setLevel (logger : Logger) (level : Level) : Logger := { logger with level }

/-- A subscriber that is there already keeps its place. -/
def subscribe (logger : Logger) (subscriber : Subscriber) : Logger :=
  if logger.subscribers.any fun other => other.id = subscriber.id then logger
  else { logger with subscribers := logger.subscribers ++ [subscriber] }

/-- Whether there was a subscriber to remove, and the log without it. -/
def unsubscribe (logger : Logger) (id : String) : Bool × Logger :=
  (logger.subscribers.any fun other => other.id = id,
    { logger with subscribers := logger.subscribers.filter fun other => other.id ≠ id })

def failureLine (message : String) : Printed :=
  { level := .error, text := s!"[streamq] Log callback error: Error: {message}" }

/-- Prints an entry at or above the level and hands it to every subscriber, in the order of
subscription.  A failure of one is printed, and the ones behind it get the entry all the same. -/
def log (logger : Logger) (entry : Entry) : Delivery :=
  if logger.level.admits entry.level then
    { printed := { level := entry.level, text := entry.line } ::
        logger.subscribers.filterMap fun subscriber => subscriber.failure.map failureLine
      received := logger.subscribers.map fun subscriber => (subscriber.id, entry) }
  else { printed := [], received := [] }

end Logger

end Carve.Log
