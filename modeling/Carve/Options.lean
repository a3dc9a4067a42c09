import Carve.Binary64.Reading
import Carve.Log
import Carve.Tree

/-!
The options of a scan: explicit ones before those of the environment, and those before the defaults,
each option on its own.  Both sources are checked in full, the explicit options first.
-/

namespace Carve

/-- A signal to stop, raised or not depending on the log entries written so far.  Once raised it
stays so. -/
structure Signal where
  raisedAfter : List Log.Entry → Bool
  stays : ∀ entries more, raisedAfter entries = true → raisedAfter (entries ++ more) = true

namespace Signal

def never : Signal := ⟨fun _ => false, by simp⟩

def raised : Signal := ⟨fun _ => true, by simp⟩

/-- Raised as soon as an entry with this message is written. -/
def onMessage (message : String) : Signal where
  raisedAfter entries := entries.any fun entry => entry.message = message
  stays entries more raised := by
    rw [List.any_append, raised, Bool.true_or]

end Signal

structure Options where
  /-- The bytes that a `near` hint looks back further than over the fixed part of a structure. -/
  nearMargin : Int
  /-- The largest size that a reference may supply. -/
  maxSize : Int
  /-- What stops a scan between two structures. -/
  signal : Option Signal

namespace Options

def default : Options where
  nearMargin := 256
  maxSize := maxSizeLimit
  signal := none

/-- Whether a scan that has written these entries is to stop. -/
def stopsAfter (options : Options) (entries : List Log.Entry) : Bool :=
  options.signal.any fun signal => signal.raisedAfter entries

/-- What explicit options are made of: trees, signals, and objects that hold either. -/
inductive Given where
  | tree (tree : Tree)
  | signal (signal : Signal)
  | object (members : List (String × Given))

namespace Given

def typeName : Given → String
  | .tree value => value.typeName
  | .signal _ | .object _ => "object"

/-- The members of an object; a signal is one without any. -/
def members? : Given → Option (List (String × Given))
  | .tree (.object members) => some (members.map fun member => (member.1, .tree member.2))
  | .tree _ => none
  | .signal _ => some []
  | .object members => some members

end Given

inductive Error where
  | explicit (issues : List Issue)
  | environment (issues : List Issue)
deriving Repr, DecidableEq

def issueText (issue : Issue) : String := s!"{issue.pathText}: {issue.complaint.message}"

def issuesText (issues : List Issue) : String := String.intercalate "; " (issues.map issueText)

def Error.message : Error → String
  | .explicit issues => "Invalid scan options: " ++ issuesText issues
  | .environment issues => "Invalid environment: " ++ issuesText issues

/-- What stands against a number as a whole one that is not negative and not above `greatest`. -/
def complaints (greatest : Option Nat) (number : Binary64) : List Complaint :=
  (if number.toInt?.isNone then [.fraction] else []) ++
    (if number.isNegative then [.tooSmall 0] else []) ++
    match greatest with
    | some greatest => if number.exceeds greatest then [.tooLarge greatest] else []
    | none => []

def checkNumber (greatest : Option Nat) : Given → Checked Int
  | .tree (.number .nan) => .refuse (.wrongType "number" "nan")
  | .tree (.number number) =>
      match number.toInt?, complaints greatest number with
      | some value, [] => .valid value
      | _, complaints => .invalid (complaints.map fun complaint => { path := [], complaint })
  | other => .refuse (.wrongType "number" other.typeName)

def checkSignal : Given → Checked Signal
  | .signal signal => .valid signal
  | _ => .refuse (.notInstance "AbortSignal")

/-- Numbers that are set. -/
structure Choice where
  nearMargin : Option Int
  maxSize : Option Int
deriving Repr, DecidableEq

def checkNearMargin (members : List (String × Given)) (key : String) : Checked (Option Int) :=
  Tree.checkOptional members key (checkNumber none)

def checkMaxSize (members : List (String × Given)) (key : String) : Checked (Option Int) :=
  Tree.checkOptional members key (checkNumber (some maxSizeLimit))

def checkExplicit (given : Given) : Checked (Choice × Option Signal) :=
  match given.members? with
  | none => .refuse (.wrongType "object" given.typeName)
  | some members =>
      (fun nearMargin maxSize signal => ({ nearMargin, maxSize }, signal))
        <$> checkNearMargin members "nearMargin"
        <*> checkMaxSize members "maxSize"
        <*> Tree.checkOptional members "signal" checkSignal

/-- The numbers that the texts of an environment spell. -/
def checkEnvironment (environment : List (String × String)) : Checked Choice :=
  let members := environment.map fun (name, text) => (name, Given.tree (.number (.ofText text)))
  Choice.mk
    <$> checkNearMargin members "STREAMQ_NEAR_MARGIN"
    <*> checkMaxSize members "STREAMQ_MAX_SIZE"

def resolve (explicit : Option Given) (environment : List (String × String)) :
    Except Error Options :=
  match checkExplicit (explicit.getD (.object [])) with
  | .invalid issues => .error (.explicit issues)
  | .valid (chosen, signal) =>
      match checkEnvironment environment with
      | .invalid issues => .error (.environment issues)
      | .valid fallback =>
          .ok { nearMargin := (chosen.nearMargin.or fallback.nearMargin).getD default.nearMargin
                maxSize := (chosen.maxSize.or fallback.maxSize).getD default.maxSize
                signal }

end Options

end Carve
