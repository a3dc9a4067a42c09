import Carve.Proofs.Literal
import Carve.Proofs.Plan.WellFormed

/-!
Legal documents, and the checks of a document in the order in which a refusal chooses among them.

The rules are said of a document as it is written, each declaration against those in front of it.
The length of the stream counts where it is known.

A check is a rule at its place, with what a refusal for it says.  Those of the constants come first,
then for every structure those of its name, its fields, its signature and its hint
(`Document.checks`).  A result is judged by some checks if it is there where none of them is
violated, and else is a refusal for the first that is (`Judged`).
-/

namespace Carve

/-- An integer that a size can be taken from. -/
def Content.SuppliesSize {α : Type} (content : Content α) : Prop :=
  ∃ type : IntegerType, content = .primitive (.integer type) ∧ type.bits ≤ 64

/-- A reference to an integer declared earlier: in one of the fields `before` of the same structure,
or in one of the structures `earlier`. -/
structure Reference.Targets (enclosing : String) (earlier : List Declaration)
    (before : List (Field String)) (reference : Reference) : Prop where
  inside : reference.IsLocal enclosing →
    ∃ field ∈ before, field.name = reference.field ∧ field.content.SuppliesSize
  outside : ¬ reference.IsLocal enclosing →
    ∃ source ∈ earlier, reference.owner = some source.name ∧
      ∃ field ∈ source.fields, field.name = reference.field ∧ field.content.SuppliesSize

structure Field.Legal (enclosing : String) (earlier : List Declaration)
    (before : List (Field String)) (field : Field String) : Prop where
  align : ∀ literal ∈ field.align, ∃ exponent, Literal.Spells literal (2 ^ exponent) ∧
    2 ^ exponent ≤ maxSizeLimit
  offset : ∀ literal ∈ field.offset, ∃ offset, Literal.SpellsSigned literal offset ∧
    offset.natAbs ≤ Number.maxSafe
  count : ∀ literal, field.content.size? = some (.literal literal) →
    ∃ count, Literal.Spells literal count ∧ count ≤ maxSizeLimit
  reference : ∀ reference, field.content.size? = some (.reference reference) →
    reference.Targets enclosing earlier before

/-- A signature is a literal or a constant whose number has room in the bytes of its type. -/
def SignatureSource.Legal (constants : List Constant) : SignatureSource → Prop
  | .literal value => ∃ number, Literal.Spells value number
  | .constant name => ∃ constant ∈ constants, constant.name = name ∧
      ∃ number, Literal.Spells constant.value number ∧ number < 2 ^ constant.type.bits

/-- The offset of a hint is a safe one, and one to skip to does not pass a known end. -/
def Hint.Legal (streamLength : Option Int) : Hint String → Prop
  | .skip literal => ∃ offset : Nat, Literal.Spells literal offset ∧ offset ≤ Number.maxSafe ∧
      ∀ length ∈ streamLength, offset ≤ length
  | .near (.offset literal) => ∃ offset, Literal.Spells literal offset ∧ offset ≤ Number.maxSafe
  | .near .streamStart | .near .streamEnd => True

structure Declaration.Legal (constants : List Constant) (streamLength : Option Int)
    (earlier : List Declaration) (declaration : Declaration) : Prop where
  distinct : (declaration.fields.map Field.name).Nodup
  fields : EachAfter (Field.Legal declaration.name earlier) declaration.fields
  signature : declaration.signature.Legal constants
  hint : ∀ hint ∈ declaration.hint, hint.Legal streamLength

structure Document.Legal (document : Document) (streamLength : Option Int) : Prop where
  constantsDistinct : ((document.constants.getD []).map Constant.name).Nodup
  constants : ∀ constant ∈ document.constants.getD [], ∃ number,
    Literal.Spells constant.value number
  distinct : (document.structures.map Declaration.name).Nodup
  structures : EachAfter (Declaration.Legal (document.constants.getD []) streamLength)
    document.structures

/-- A rule at its place in a document, and what a refusal for it says. -/
structure Check where
  code : PlanError.Code
  structureName : Option String
  fieldName : Option String
  violated : Prop

/-- The first check of a list that is violated. -/
structure Check.IsFirst (checks : List Check) (check : Check) : Prop where
  violated : check.violated
  split : ∃ before after, checks = before ++ check :: after ∧
    ∀ earlier ∈ before, ¬ earlier.violated

/-- The error is a refusal for the check. -/
structure Check.Reports (check : Check) (error : PlanError) : Prop where
  code : error.code = check.code
  structureName : error.structureName? = check.structureName
  fieldName : error.fieldName? = check.fieldName

/-- The checks of every element, one after the other, each with the elements in front of it and
those behind. -/
def inOrder {α : Type} (checks : List α → α → List α → List Check) (before : List α) :
    List α → List Check
  | [] => []
  | element :: after => checks before element after ++ inOrder checks (before ++ [element]) after

/-- A place for a field in a document. -/
structure Site where
  /-- The structures in front of its own. -/
  earlier : List Declaration
  structureName : String
  /-- The structures behind its own. -/
  later : List Declaration
  /-- The fields in front. -/
  before : List (Field String)
  field : Field String
  /-- The fields behind. -/
  after : List (Field String)

/-- The field that a reference names, where it is declared in front. -/
inductive Reference.Sees (site : Site) (reference : Reference) (seen : Field String) : Prop
  | inside (isLocal : reference.IsLocal site.structureName) (declared : seen ∈ site.before)
      (named : seen.name = reference.field)
  | outside (source : Declaration) (foreign : ¬ reference.IsLocal site.structureName)
      (scanned : source ∈ site.earlier) (owned : reference.owner = some source.name)
      (declared : seen ∈ source.fields) (named : seen.name = reference.field)

/-- What a reference names is declared, but not in front: a field of the structure itself, which may
be the referring one, or another structure. -/
inductive Reference.Awaits (site : Site) (reference : Reference) : Prop
  | inside (named : Field String) (isLocal : reference.IsLocal site.structureName)
      (declared : named ∈ site.field :: site.after) (same : named.name = reference.field)
  | outside (source : Declaration) (foreign : ¬ reference.IsLocal site.structureName)
      (owned : reference.owner = some source.name)
      (unscanned : ∀ other ∈ site.earlier, other.name ≠ source.name)
      (declared : source ∈ site.later)

namespace Site

def check (site : Site) (code : PlanError.Code) (violated : Prop) : Check :=
  { code, structureName := some site.structureName, fieldName := some site.field.name, violated }

@[simp] theorem check_violated (site : Site) (code : PlanError.Code) (violated : Prop) :
    (site.check code violated).violated = violated := rfl

def duplicateCheck (site : Site) : Check :=
  site.check .duplicateField (∃ other ∈ site.before, other.name = site.field.name)

def alignChecks (site : Site) : List Check :=
  match site.field.align with
  | none => []
  | some literal =>
      [site.check .invalidLiteral (¬ ∃ number, Literal.Spells literal number),
        site.check .invalidAlignment (∃ number, Literal.Spells literal number ∧
          ¬ ∃ exponent, number = 2 ^ exponent ∧ number ≤ maxSizeLimit)]

def offsetChecks (site : Site) : List Check :=
  match site.field.offset with
  | none => []
  | some literal =>
      [site.check .invalidLiteral (¬ ∃ offset, Literal.SpellsSigned literal offset ∧
        offset.natAbs ≤ Number.maxSafe)]

def referenceChecks (site : Site) (reference : Reference) : List Check :=
  [site.check .forwardReference ((¬ ∃ seen, reference.Sees site seen) ∧ reference.Awaits site),
    site.check .undeclaredReference
      ((¬ ∃ seen, reference.Sees site seen) ∧ ¬ reference.Awaits site),
    site.check .nonIntegerReference
      (∃ seen, reference.Sees site seen ∧ ¬ seen.content.SuppliesSize)]

def sizeChecks (site : Site) : Size String → List Check
  | .literal literal =>
      [site.check .invalidLiteral
        (¬ ∃ count, Literal.Spells literal count ∧ count ≤ maxSizeLimit)]
  | .reference reference => site.referenceChecks reference

def contentChecks (site : Site) : List Check :=
  match site.field.content with
  | .primitive _ => []
  | .buffer size | .text size => site.sizeChecks size

def checks (site : Site) : List Check :=
  site.duplicateCheck :: (site.alignChecks ++ (site.offsetChecks ++ site.contentChecks))

end Site

namespace Constant

def check (code : PlanError.Code) (violated : Prop) : Check :=
  { code, structureName := none, fieldName := none, violated }

@[simp] theorem check_violated (code : PlanError.Code) (violated : Prop) :
    (check code violated).violated = violated := rfl

def checks (before : List Constant) (constant : Constant) : List Check :=
  [check .duplicateConstant (∃ other ∈ before, other.name = constant.name),
    check .invalidLiteral (¬ ∃ number, Literal.Spells constant.value number)]

end Constant

namespace Declaration

def check (declaration : Declaration) (code : PlanError.Code) (violated : Prop) : Check :=
  { code, structureName := some declaration.name, fieldName := none, violated }

@[simp] theorem check_violated (declaration : Declaration) (code : PlanError.Code)
    (violated : Prop) : (declaration.check code violated).violated = violated := rfl

def duplicateCheck (earlier : List Declaration) (declaration : Declaration) : Check :=
  declaration.check .duplicateStructure (∃ other ∈ earlier, other.name = declaration.name)

def fieldChecks (earlier : List Declaration) (declaration : Declaration)
    (later : List Declaration) (before : List (Field String)) :
    List (Field String) → List Check :=
  inOrder (fun before field after => Site.checks
    { earlier, structureName := declaration.name, later, before, field, after }) before

def signatureChecks (constants : List Constant) (declaration : Declaration) : List Check :=
  match declaration.signature with
  | .literal value =>
      [declaration.check .invalidLiteral (¬ ∃ number, Literal.Spells value number)]
  | .constant name =>
      [declaration.check .unknownConstant (¬ ∃ constant ∈ constants, constant.name = name),
        declaration.check .invalidSignature (∃ constant ∈ constants, constant.name = name ∧
          ∃ number, Literal.Spells constant.value number ∧ 2 ^ constant.type.bits ≤ number)]

def offsetCheck (declaration : Declaration) (literal : String) : Check :=
  declaration.check .invalidLiteral
    (¬ ∃ offset, Literal.Spells literal offset ∧ offset ≤ Number.maxSafe)

def hintChecks (streamLength : Option Int) (declaration : Declaration) : List Check :=
  match declaration.hint with
  | none | some (.near .streamStart) | some (.near .streamEnd) => []
  | some (.near (.offset literal)) => [declaration.offsetCheck literal]
  | some (.skip literal) =>
      [declaration.offsetCheck literal,
        declaration.check .skipOutOfRange (∃ offset : Nat, Literal.Spells literal offset ∧
          ∃ length ∈ streamLength, length < offset)]

def checks (constants : List Constant) (streamLength : Option Int) (earlier : List Declaration)
    (declaration : Declaration) (later : List Declaration) : List Check :=
  declaration.duplicateCheck earlier ::
    (declaration.fieldChecks earlier later [] declaration.fields ++
      (declaration.signatureChecks constants ++ declaration.hintChecks streamLength))

end Declaration

/-- All checks of a document, in order. -/
def Document.checks (document : Document) (streamLength : Option Int) : List Check :=
  inOrder (fun before constant _ => constant.checks before) [] (document.constants.getD []) ++
    inOrder (Declaration.checks (document.constants.getD []) streamLength) [] document.structures

/-- A result is there where none of the checks is violated, and else is a refusal for the first that
is. -/
inductive Judged {α : Type} (checks : List Check) : Except PlanFailure α → Prop
  | passed (value : α) (kept : ∀ check ∈ checks, ¬ check.violated) : Judged checks (.ok value)
  | refused (error : PlanError) (check : Check) (first : check.IsFirst checks)
      (reported : check.Reports error) : Judged checks (.error (.refused error))

namespace Judged

variable {α β : Type} {check : Check} {checks front back : List Check}
  {result : Except PlanFailure α}

theorem nil (value : α) : Judged [] (.ok value) := .passed value (by simp)

/-- A violated check decides, whatever comes behind it. -/
theorem head {error : PlanError} (violated : check.violated) (reported : check.Reports error) :
    Judged (check :: checks) (.error (.refused error) : Except PlanFailure α) :=
  .refused error check ⟨violated, [], checks, rfl, by simp⟩ reported

theorem cons (kept : ¬ check.violated) (rest : Judged checks result) :
    Judged (check :: checks) result := by
  cases rest with
  | passed value others => exact .passed value (List.forall_mem_cons.mpr ⟨kept, others⟩)
  | refused error culprit first reported =>
      obtain ⟨before, after, rfl, others⟩ := first.split
      exact .refused error culprit ⟨first.violated, check :: before, after, rfl,
        List.forall_mem_cons.mpr ⟨kept, others⟩⟩ reported

/-- What comes next is judged by the checks behind. -/
theorem bind {next : α → Except PlanFailure β} (first : Judged front result)
    (second : ∀ value, result = .ok value → Judged back (next value)) :
    Judged (front ++ back) (result >>= next) := by
  cases first with
  | refused error culprit first reported =>
      obtain ⟨before, after, rfl, others⟩ := first.split
      exact .refused error culprit ⟨first.violated, before, after ++ back,
        by rw [List.append_assoc, List.cons_append], others⟩ reported
  | passed value kept =>
      have rest := second value rfl
      clear second
      induction front with
      | nil => exact rest
      | cons check front ih =>
          obtain ⟨held, others⟩ := List.forall_mem_cons.mp kept
          exact .cons held (ih others)

theorem map {function : α → β} (judged : Judged checks result) :
    Judged checks (result.map function) := by
  cases judged with
  | passed value kept => exact .passed _ kept
  | refused error culprit first reported => exact .refused error culprit first reported

/-- Nothing more is checked of what is only put together. -/
theorem finish {last : α → β} (judged : Judged checks result) :
    Judged checks (result >>= fun value => .ok (last value)) := by
  cases judged with
  | passed value kept => exact .passed _ kept
  | refused error culprit first reported => exact .refused error culprit first reported

/-- One check is violated exactly where there is no result. -/
theorem single (accepted : (∃ value, result = .ok value) ↔ ¬ check.violated)
    (reported : ∀ failure, result = .error failure →
      ∃ error, failure = .refused error ∧ check.Reports error) : Judged [check] result := by
  cases result with
  | ok value => exact .cons (accepted.mp ⟨value, rfl⟩) (.nil value)
  | error failure =>
      obtain ⟨error, rfl, reports⟩ := reported failure rfl
      refine .head (Classical.byContradiction fun kept => ?_) reports
      obtain ⟨_, same⟩ := accepted.mpr kept
      contradiction

end Judged

end Carve
