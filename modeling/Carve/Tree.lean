import Carve.Binary64

/-!
Untrusted trees of values, as a query front end or a file hands them over, and checking one against
a shape.  The names in an object are distinct; where a list repeats one, the first counts.

A check gives a value or the list of everything that is wrong.  Checks of several parts are combined
by `<*>`, which keeps the issues of all of them in order; each issue carries the path to its place.
-/

namespace Carve

inductive Tree where
  | null
  | boolean (value : Bool)
  | number (number : Binary64)
  | string (text : String)
  | array (items : List Tree)
  | object (members : List (String × Tree))
deriving Repr, Inhabited

def Tree.typeName : Tree → String
  | .null => "null"
  | .boolean _ => "boolean"
  | .number _ => "number"
  | .string _ => "string"
  | .array _ => "array"
  | .object _ => "object"

inductive PathStep where
  | key (name : String)
  | index (number : Nat)
deriving Repr, DecidableEq

def PathStep.text : PathStep → String
  | .key name => name
  | .index number => Nat.repr number

inductive Complaint where
  | missing
  | wrongType (wanted received : String)
  /-- A text that does not have the format which `format` describes. -/
  | malformed (format : String)
  | notAmong (choices : List String) (received : String)
  /-- No text at all where one of some texts is wanted. -/
  | noChoice (choices : List String) (received : String)
  | unknownTag (tags : List String)
  | fraction
  | tooSmall (least : Nat)
  | tooLarge (greatest : Nat)
  | notInstance (className : String)
deriving Repr, DecidableEq

structure Issue where
  path : List PathStep
  complaint : Complaint
deriving Repr, DecidableEq

def Complaint.quote (choices : List String) : String :=
  String.intercalate " | " (choices.map fun choice => s!"'{choice}'")

def Complaint.message : Complaint → String
  | .missing => "Required"
  | .wrongType wanted received => s!"Expected {wanted}, received {received}"
  | .malformed format => s!"invalid {format}"
  | .notAmong choices received =>
      s!"Invalid enum value. Expected {quote choices}, received '{received}'"
  | .noChoice choices received => s!"Expected {quote choices}, received {received}"
  | .unknownTag tags => s!"Invalid discriminator value. Expected {quote tags}"
  | .fraction => "Expected integer, received float"
  | .tooSmall least => s!"Number must be greater than or equal to {least}"
  | .tooLarge greatest => s!"Number must be less than or equal to {greatest}"
  | .notInstance className => s!"Input not instance of {className}"

namespace Issue

def pathText (issue : Issue) : String := String.intercalate "." (issue.path.map PathStep.text)

/-- The issue as seen from one step further out. -/
def under (step : PathStep) (issue : Issue) : Issue := { issue with path := step :: issue.path }

end Issue

inductive Checked (α : Type) where
  | valid (value : α)
  | invalid (issues : List Issue)
deriving Repr, DecidableEq

namespace Checked

variable {α β : Type}

def issues : Checked α → List Issue
  | .valid _ => []
  | .invalid issues => issues

def map (change : α → β) : Checked α → Checked β
  | .valid value => .valid (change value)
  | .invalid issues => .invalid issues

/-- Both parts, or the issues of both. -/
def seq (change : Checked (α → β)) (checked : Checked α) : Checked β :=
  match change, checked with
  | .valid change, .valid value => .valid (change value)
  | .valid _, .invalid issues => .invalid issues
  | .invalid issues, checked => .invalid (issues ++ checked.issues)

instance : Applicative Checked where
  pure := .valid
  map := map
  seq change checked := seq change (checked ())

/-- The check of a part, with its issues placed in the whole. -/
def under (step : PathStep) : Checked α → Checked α
  | .valid value => .valid value
  | .invalid issues => .invalid (issues.map (Issue.under step))

def refuse (complaint : Complaint) : Checked α := .invalid [{ path := [], complaint }]

theorem issues_map (change : α → β) (checked : Checked α) :
    (map change checked).issues = checked.issues := by
  cases checked <;> rfl

theorem issues_seq (change : Checked (α → β)) (checked : Checked α) :
    (seq change checked).issues = change.issues ++ checked.issues := by
  cases change <;> cases checked <;> simp [seq, issues]

theorem issues_under (step : PathStep) (checked : Checked α) :
    (under step checked).issues = checked.issues.map (Issue.under step) := by
  cases checked <;> rfl

end Checked

namespace Tree

variable {α : Type}

def checkString : Tree → Checked String
  | .string text => .valid text
  | other => .refuse (.wrongType "string" other.typeName)

/-- A text that passes a test. -/
def checkFormat (format : String) (test : String → Bool) (tree : Tree) : Checked String :=
  match tree.checkString with
  | .valid text => if test text then .valid text else .refuse (.malformed format)
  | .invalid issues => .invalid issues

/-- The meaning of one of some texts. -/
def checkChoice (choices : List (String × α)) : Tree → Checked α
  | .string text =>
      match choices.lookup text with
      | some value => .valid value
      | none => .refuse (.notAmong (choices.map Prod.fst) text)
  | other => .refuse (.noChoice (choices.map Prod.fst) other.typeName)

def checkObject (check : List (String × Tree) → Checked α) : Tree → Checked α
  | .object members => check members
  | other => .refuse (.wrongType "object" other.typeName)

/-- The items of an array from the one at `index` on. -/
def checkItems (check : Tree → Checked α) (index : Nat) : List Tree → Checked (List α)
  | [] => .valid []
  | item :: rest =>
      List.cons <$> (check item).under (.index index) <*> checkItems check (index + 1) rest

def checkArray (check : Tree → Checked α) : Tree → Checked (List α)
  | .array items => checkItems check 0 items
  | other => .refuse (.wrongType "array" other.typeName)

def checkRequired (members : List (String × Tree)) (key : String) (check : Tree → Checked α) :
    Checked α :=
  match members.lookup key with
  | some tree => (check tree).under (.key key)
  | none => (Checked.refuse .missing).under (.key key)

def checkOptional {β : Type} (members : List (String × β)) (key : String) (check : β → Checked α) :
    Checked (Option α) :=
  match members.lookup key with
  | some member => some <$> (check member).under (.key key)
  | none => .valid none

/-- An object of one of several shapes, told apart by its member `kind`. -/
def checkTagged (shapes : List (String × (List (String × Tree) → Checked α))) (tree : Tree) :
    Checked α :=
  let unknown := (Checked.refuse (.unknownTag (shapes.map Prod.fst))).under (.key "kind")
  tree.checkObject fun members =>
    match members.lookup "kind" with
    | some (.string tag) =>
        match shapes.lookup tag with
        | some check => check members
        | none => unknown
    | _ => unknown

end Tree

end Carve
