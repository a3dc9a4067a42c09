import Carve.Proofs.Document.Respelling
import Carve.Proofs.Plan.FirstViolation

/-!
Plans of documents that say the same in other spellings.

A plan holds numbers and no literals, and of a literal the compiler looks at the number that it
spells and, in a signature, at the bytes that it fills.  The text itself goes nowhere but into an
error, so without the texts that errors quote (`PlanError.unquoted`) both documents compile to the
same (`Plan.ofDocument_unquoted`).
-/

/-- Where changing the errors makes two results the same, both are one value, or errors that change
to the same. -/
theorem Except.of_mapError_eq {ε ε' α : Type} {result other : Except ε α} {change : ε → ε'}
    (same : result.mapError change = other.mapError change) :
    (∃ value, result = .ok value ∧ other = .ok value) ∨ ∃ error reason,
      result = .error error ∧ other = .error reason ∧ change error = change reason := by
  cases result with
  | ok value => exact .inl ⟨value, rfl, Except.mapError_eq_ok.mp same.symm⟩
  | error error =>
      obtain ⟨reason, failed, changed⟩ := Except.mapError_eq_error.mp same.symm
      exact .inr ⟨error, reason, rfl, failed, changed.symm⟩

theorem List.Forall₂.map_eq {α β : Type} {related : α → α → Prop} {elements others : List α}
    (each : List.Forall₂ related elements others) {part : α → β}
    (same : ∀ element other, related element other → part element = part other) :
    elements.map part = others.map part := by
  rw [← List.forall₂_eq_eq_eq, List.forall₂_map_left_iff, List.forall₂_map_right_iff]
  exact each.imp same

namespace Carve

/-- The error with an empty text for the literal it quotes. -/
def Literal.Error.unquoted : Literal.Error → Literal.Error
  | .malformedHex _ => .malformedHex ""
  | .malformedSignedHex _ => .malformedSignedHex ""
  | .unknownByteOrder _ => .unknownByteOrder ""
  | .unsafeOffset _ => .unsafeOffset ""

def FieldError.unquoted : FieldError → FieldError
  | .malformed error => .malformed error.unquoted
  | .notPowerOfTwo _ => .notPowerOfTwo ""
  | .sizeTooLarge _ => .sizeTooLarge ""
  | error => error

def DeclarationError.unquoted : DeclarationError → DeclarationError
  | .malformed error => .malformed error.unquoted
  | error => error

def PlanError.unquoted : PlanError → PlanError
  | .constant error => .constant error
  | .declaration structureName error => .declaration structureName error.unquoted
  | .field structureName fieldName error => .field structureName fieldName error.unquoted

def PlanFailure.unquoted : PlanFailure → PlanFailure
  | .refused error => .refused error.unquoted
  | .fault reason => .fault reason

namespace PlanError

/-- What an error says of the document does not depend on the text it quotes. -/
theorem code_unquoted (error : PlanError) : error.unquoted.code = error.code := by
  cases error with
  | constant reason => rfl
  | declaration structureName reason => cases reason <;> rfl
  | field structureName fieldName reason =>
      cases reason with
      | reference written cause => cases cause <;> rfl
      | duplicate | malformed _ | notPowerOfTwo _ | sizeTooLarge _ => rfl

theorem structureName_unquoted (error : PlanError) :
    error.unquoted.structureName? = error.structureName? := by
  cases error <;> rfl

theorem fieldName_unquoted (error : PlanError) : error.unquoted.fieldName? = error.fieldName? := by
  cases error <;> rfl

end PlanError

namespace Plan

/-- The scope of another declaration at the same place. -/
def Scope.respelled (scope : Scope) (other : Declaration) : Scope :=
  { scope with declaration := other }

section Field

variable {scope : Scope} {declaration : Declaration} (fields : List (Field Int))

/-- Of the declaration itself a reference asks for names alone. -/
theorem target_respelled (same : scope.declaration.Respells declaration) (reference : Reference) :
    target (scope.respelled declaration) fields reference = target scope fields reference := by
  have names : scope.declaration.fields.map Field.name = declaration.fields.map Field.name :=
    same.fields.map_eq fun _ _ same => same.name
  have declared : (declaration.fields.any fun field => field.name = reference.field) =
      scope.declaration.fields.any fun field => field.name = reference.field := by
    simpa [List.any_map, Function.comp_def] using
      congrArg (List.any · fun name => decide (name = reference.field)) names.symm
  simp only [target, Scope.respelled, declared, same.name]
  rfl

theorem checkReference_respelled (same : scope.declaration.Respells declaration)
    (reference : Reference) : checkReference (scope.respelled declaration) fields reference =
      checkReference scope fields reference := by
  rw [checkReference, checkReference, target_respelled fields same]

theorem compileSize_respelled {size other : Size String}
    (same : scope.declaration.Respells declaration) (respelled : size.Respells other)
    (spelled : size.Spelled) (otherSpelled : other.Spelled) :
    (compileSize scope fields size).mapError FieldError.unquoted =
      (compileSize (scope.respelled declaration) fields other).mapError FieldError.unquoted := by
  cases respelled with
  | literal alike =>
      obtain ⟨count, parsed, otherParsed⟩ := alike.parseHex_exists spelled otherSpelled
      simp only [compileSize, parsed, otherParsed]
      split <;> rfl
  | reference reference => simp only [compileSize, checkReference_respelled fields same]

theorem compileContent_respelled {content other : Content String}
    (same : scope.declaration.Respells declaration) (respelled : content.Respells other)
    (spelled : ∀ size ∈ content.size?, size.Spelled)
    (otherSpelled : ∀ size ∈ other.size?, size.Spelled) :
    (compileContent scope fields content).mapError FieldError.unquoted =
      (compileContent (scope.respelled declaration) fields other).mapError FieldError.unquoted := by
  cases respelled with
  | primitive type => rfl
  | buffer alike | text alike =>
      simp only [compileContent, Except.mapError_map,
        compileSize_respelled fields same alike (spelled _ rfl) (otherSpelled _ rfl)]

theorem compileAlign_respelled {align other : Option String}
    (respelled : Option.Rel Literal.Respells align other)
    (spelled : ∀ literal ∈ align, Literal.Hex literal)
    (otherSpelled : ∀ literal ∈ other, Literal.Hex literal) :
    (compileAlign align).mapError FieldError.unquoted =
      (compileAlign other).mapError FieldError.unquoted := by
  cases respelled with
  | none => rfl
  | some alike =>
      obtain ⟨number, parsed, otherParsed⟩ :=
        alike.parseHex_exists (spelled _ rfl) (otherSpelled _ rfl)
      simp only [compileAlign, parsed, otherParsed]
      split <;> rfl

theorem safeOffset_respelled {parse : String → Except Literal.Error Int} {literal other : String}
    {offset : Int} (parsed : parse literal = .ok offset) (otherParsed : parse other = .ok offset) :
    (safeOffset parse literal).mapError Literal.Error.unquoted =
      (safeOffset parse other).mapError Literal.Error.unquoted := by
  simp only [safeOffset, parsed, otherParsed, Literal.toSafeOffset]
  split <;> rfl

theorem compileOffset_respelled {offset other : Option String}
    (respelled : Option.Rel Literal.RespellsSigned offset other)
    (spelled : ∀ literal ∈ offset, Literal.SignedHex literal)
    (otherSpelled : ∀ literal ∈ other, Literal.SignedHex literal) :
    (compileOffset offset).mapError FieldError.unquoted =
      (compileOffset other).mapError FieldError.unquoted := by
  have compiled (literal : String) : (compileOffset (some literal)).mapError FieldError.unquoted =
      (((safeOffset Literal.parseSignedHex literal).mapError Literal.Error.unquoted).map
        some).mapError FieldError.malformed := by
    rw [compileOffset]
    cases safeOffset Literal.parseSignedHex literal <;> rfl
  cases respelled with
  | none => rfl
  | some alike =>
      obtain ⟨number, parsed, otherParsed⟩ :=
        alike.parseSignedHex_exists (spelled _ rfl) (otherSpelled _ rfl)
      rw [compiled, compiled, safeOffset_respelled parsed otherParsed]

theorem compileField_respelled {field other : Field String}
    (same : scope.declaration.Respells declaration) (respelled : field.Respells other)
    (spelled : field.Spelled) (otherSpelled : other.Spelled) :
    (compileField scope fields field).mapError FieldError.unquoted =
      (compileField (scope.respelled declaration) fields other).mapError FieldError.unquoted := by
  simp only [compileField, Except.mapError_bind,
    compileAlign_respelled respelled.align spelled.align otherSpelled.align,
    compileOffset_respelled respelled.offset spelled.offset otherSpelled.offset,
    compileContent_respelled fields same respelled.content spelled.size otherSpelled.size,
    respelled.name]

theorem compileFields_respelled {declared others : List (Field String)}
    (same : scope.declaration.Respells declaration)
    (respelled : List.Forall₂ Field.Respells declared others)
    (spelled : ∀ field ∈ declared, field.Spelled) (otherSpelled : ∀ field ∈ others, field.Spelled) :
    (compileFields scope declared fields).mapError PlanError.unquoted =
      (compileFields (scope.respelled declaration) others fields).mapError PlanError.unquoted := by
  induction respelled generalizing fields with
  | nil => rfl
  | @cons field other rest others alike _ ih =>
      obtain ⟨fine, restFine⟩ := List.forall_mem_cons.mp spelled
      obtain ⟨otherFine, othersFine⟩ := List.forall_mem_cons.mp otherSpelled
      have first := compileField_respelled fields same alike fine otherFine
      have name : scope.declaration.name = (scope.respelled declaration).declaration.name :=
        same.name
      simp only [compileFields, ← alike.name, ← name]
      split
      · rfl
      · rcases Except.of_mapError_eq first with ⟨compiled, done, otherDone⟩ |
          ⟨error, reason, failed, otherFailed, quoted⟩
        · simp only [done, otherDone]
          exact ih (fields ++ [compiled]) restFine othersFine
        · simp only [failed, otherFailed, Except.mapError_error, PlanError.unquoted, quoted]

end Field

section Structures

variable (constants : Constants)

/-- The bytes that a signature fills are the same as well, and so it compiles to the same. -/
theorem spelledSignature_respelled {source other : SignatureSource}
    (respelled : source.Respells other) (spelled : source.Spelled) (otherSpelled : other.Spelled)
    (structureName : String) : spelledSignature constants structureName source =
      spelledSignature constants structureName other := by
  cases respelled with
  | literal alike =>
      obtain ⟨number, parsed, otherParsed⟩ := alike.respells.parseHex_exists spelled otherSpelled
      simp only [spelledSignature, parsed, otherParsed, alike.bytes]
  | constant name => rfl

theorem compileSignature_respelled {source other : SignatureSource}
    (respelled : source.Respells other) (spelled : source.Spelled) (otherSpelled : other.Spelled)
    (structureName : String) (order : ByteOrder) :
    compileSignature constants structureName order source =
      compileSignature constants structureName order other := by
  rw [compileSignature, compileSignature,
    spelledSignature_respelled constants respelled spelled otherSpelled]

theorem parseOffset_respelled {literal other : String} (respelled : Literal.Respells literal other)
    (hex : Literal.Hex literal) (otherHex : Literal.Hex other) :
    (parseOffset literal).mapError Literal.Error.unquoted =
      (parseOffset other).mapError Literal.Error.unquoted := by
  obtain ⟨number, parsed, otherParsed⟩ := respelled.parseHex_exists hex otherHex
  exact safeOffset_respelled (Except.map_eq_ok.mpr ⟨number, parsed, rfl⟩)
    (Except.map_eq_ok.mpr ⟨number, otherParsed, rfl⟩)

theorem compileHint_respelled {hint other : Hint String} (respelled : hint.Respells other)
    (spelled : hint.Spelled) (otherSpelled : other.Spelled) (streamLength : Option Int) :
    (compileHint streamLength hint).mapError DeclarationError.unquoted =
      (compileHint streamLength other).mapError DeclarationError.unquoted := by
  cases respelled with
  | skip alike =>
      rcases Except.of_mapError_eq (parseOffset_respelled alike spelled otherSpelled) with
        ⟨offset, parsed, otherParsed⟩ | ⟨error, reason, failed, otherFailed, quoted⟩
      · simp only [compileHint, parsed, otherParsed]
      · simp only [compileHint, failed, otherFailed, Except.mapError_error,
          DeclarationError.unquoted, quoted]
  | near alike =>
      cases alike with
      | offset alike =>
          rcases Except.of_mapError_eq (parseOffset_respelled alike spelled otherSpelled) with
            ⟨offset, parsed, otherParsed⟩ | ⟨error, reason, failed, otherFailed, quoted⟩
          · simp only [compileHint, parsed, otherParsed]
          · simp only [compileHint, failed, otherFailed, Except.mapError_error,
              DeclarationError.unquoted, quoted]
      | streamStart | streamEnd => rfl

theorem compileOptionalHint_respelled {written other : Option (Hint String)}
    (respelled : Option.Rel Hint.Respells written other)
    (spelled : ∀ hint ∈ written, hint.Spelled) (otherSpelled : ∀ hint ∈ other, hint.Spelled)
    (streamLength : Option Int) :
    (compileOptionalHint streamLength written).mapError DeclarationError.unquoted =
      (compileOptionalHint streamLength other).mapError DeclarationError.unquoted := by
  cases respelled with
  | none => rfl
  | some alike =>
      simp only [compileOptionalHint, Except.mapError_map,
        compileHint_respelled alike (spelled _ rfl) (otherSpelled _ rfl)]

theorem refused_unquoted {α : Type} (result : Except PlanError α) :
    (result.mapError PlanFailure.refused).mapError PlanFailure.unquoted =
      (result.mapError PlanError.unquoted).mapError .refused := by
  cases result <;> rfl

theorem declaration_unquoted {α : Type} (structureName : String)
    (result : Except DeclarationError α) :
    (result.mapError fun error => PlanFailure.refused (.declaration structureName error)).mapError
        PlanFailure.unquoted =
      (result.mapError DeclarationError.unquoted).mapError
        fun error => .refused (.declaration structureName error) := by
  cases result <;> rfl

theorem compileStructure_respelled (scope : Scope) {other : Declaration}
    (respelled : scope.declaration.Respells other) (spelled : scope.declaration.Spelled)
    (otherSpelled : other.Spelled) (order : ByteOrder) (streamLength : Option Int) :
    (compileStructure constants order streamLength scope).mapError PlanFailure.unquoted =
      (compileStructure constants order streamLength (scope.respelled other)).mapError
        PlanFailure.unquoted := by
  have fields := compileFields_respelled [] respelled respelled.fields spelled.fields
    otherSpelled.fields
  have signature := compileSignature_respelled constants respelled.signature
    spelled.signature otherSpelled.signature
  have hint := compileOptionalHint_respelled respelled.hint spelled.hint otherSpelled.hint
    streamLength
  simp only [compileStructure, Except.mapError_bind, refused_unquoted, declaration_unquoted, fields,
    signature, hint, Scope.respelled, respelled.name, respelled.byteOrder]

theorem compileStructures_respelled {declarations others : List Declaration}
    (respelled : List.Forall₂ Declaration.Respells declarations others)
    (spelled : ∀ declaration ∈ declarations, declaration.Spelled)
    (otherSpelled : ∀ declaration ∈ others, declaration.Spelled) (order : ByteOrder)
    (streamLength : Option Int) (names : List String) (layouts : List Layout) :
    (compileStructures constants order streamLength names declarations layouts).mapError
        PlanFailure.unquoted =
      (compileStructures constants order streamLength names others layouts).mapError
        PlanFailure.unquoted := by
  induction respelled generalizing layouts with
  | nil => rfl
  | @cons declaration other rest others alike _ ih =>
      obtain ⟨fine, restFine⟩ := List.forall_mem_cons.mp spelled
      obtain ⟨otherFine, othersFine⟩ := List.forall_mem_cons.mp otherSpelled
      have first := compileStructure_respelled constants
        { declaration, earlier := layouts, structureNames := names } alike fine otherFine order
        streamLength
      simp only [Scope.respelled] at first
      simp only [compileStructures, ← alike.name]
      split
      · rfl
      · rcases Except.of_mapError_eq first with ⟨layout, done, otherDone⟩ |
          ⟨failure, reason, failed, otherFailed, quoted⟩
        · simp only [done, otherDone]
          exact ih restFine othersFine (layouts ++ [layout])
        · simp only [failed, otherFailed, Except.mapError_error, quoted]

end Structures

theorem collectConstants_respelled {declared others : List Constant}
    (respelled : List.Forall₂ Constant.Respells declared others)
    (spelled : ∀ constant ∈ declared, constant.Spelled)
    (otherSpelled : ∀ constant ∈ others, constant.Spelled) (known : Constants) :
    collectConstants declared known = collectConstants others known := by
  induction respelled generalizing known with
  | nil => rfl
  | @cons constant other rest others alike _ ih =>
      obtain ⟨fine, restFine⟩ := List.forall_mem_cons.mp spelled
      obtain ⟨otherFine, othersFine⟩ := List.forall_mem_cons.mp otherSpelled
      obtain ⟨number, parsed, otherParsed⟩ :=
        alike.value.parseHex_exists fine.value otherFine.value
      simp only [collectConstants, parsed, otherParsed, ← alike.name, ← alike.type,
        ih restFine othersFine]

theorem constants_respelled {declared others : Option (List Constant)}
    (respelled : Option.Rel (List.Forall₂ Constant.Respells) declared others)
    (spelled : ∀ constants ∈ declared, ∀ constant ∈ constants, constant.Spelled)
    (otherSpelled : ∀ constants ∈ others, ∀ constant ∈ constants, constant.Spelled) :
    collectConstants (declared.getD []) .empty = collectConstants (others.getD []) .empty := by
  cases respelled with
  | none => rfl
  | some alike =>
      exact collectConstants_respelled alike (spelled _ rfl) (otherSpelled _ rfl) .empty

variable {document other : Document}

/-- But for the texts that errors quote, the compiler makes no difference between spellings. -/
theorem ofDocument_unquoted (respelled : document.Respells other) (spelled : document.Spelled)
    (otherSpelled : other.Spelled) (streamLength : Option Int) :
    (ofDocument document streamLength).mapError PlanFailure.unquoted =
      (ofDocument other streamLength).mapError PlanFailure.unquoted := by
  have constants :=
    constants_respelled respelled.constants spelled.constants otherSpelled.constants
  have structures (constants : Constants) (order : ByteOrder) (names : List String) :=
    compileStructures_respelled constants respelled.structures spelled.structures
      otherSpelled.structures order streamLength names []
  have names : document.structures.map Declaration.name = other.structures.map Declaration.name :=
    respelled.structures.map_eq fun _ _ alike => alike.name
  simp only [ofDocument, Except.mapError_bind, constants, structures, names, respelled.byteOrder]

/-- Two documents that differ in nothing but the spelling of their literals have the same plan, or
both are refused by the same rule at the same place. -/
theorem ofDocument_respelled {tree otherTree : Option Tree}
    (read : Document.ofTree tree = .ok document) (otherRead : Document.ofTree otherTree = .ok other)
    (respelled : document.Respells other) (streamLength : Option Int) :
    (∃ plan, ofDocument document streamLength = .ok plan ∧
      ofDocument other streamLength = .ok plan) ∨
    ∃ error reason : PlanError, ofDocument document streamLength = .error (.refused error) ∧
      ofDocument other streamLength = .error (.refused reason) ∧ error.code = reason.code ∧
      error.structureName? = reason.structureName? ∧ error.fieldName? = reason.fieldName? := by
  have same := ofDocument_unquoted respelled (Document.ofTree_spelled read)
    (Document.ofTree_spelled otherRead) streamLength
  rcases Except.of_mapError_eq same with planned |
    ⟨failure, otherFailure, failed, otherFailed, unquoted⟩
  · exact .inl planned
  · obtain ⟨error, rfl, _⟩ := ofDocument_eq_error failed
    obtain ⟨reason, rfl, _⟩ := ofDocument_eq_error otherFailed
    have quoted : error.unquoted = reason.unquoted := PlanFailure.refused.inj unquoted
    refine .inr ⟨error, reason, failed, otherFailed, ?_, ?_, ?_⟩
    · rw [← error.code_unquoted, quoted, reason.code_unquoted]
    · rw [← error.structureName_unquoted, quoted, reason.structureName_unquoted]
    · rw [← error.fieldName_unquoted, quoted, reason.fieldName_unquoted]

/-- A document with literals of every kind: for an alignment, for a count, for a signature and for
an offset of zero. -/
def sampleSpelling (align count mark zero : String) : Document where
  byteOrder := none
  constants := some [{ name := "count", type := ⟨false, .one⟩, value := count }]
  structures :=
    [{ name := "block", signature := .literal mark, byteOrder := some .big
       hint := some (.skip count)
       fields :=
         [{ name := "data", content := .buffer (.literal count), align := some align
            offset := some zero }] },
      { name := "tail", signature := .constant "count", byteOrder := none
        hint := some (.near (.offset count)), fields := [] }]

/-- In a long stream both spellings give one plan, and in a short one both are refused for the skip
past its end. -/
theorem ofDocument_respelled_sample :
    let document := sampleSpelling "0x4" "0x1f" "0x0aBcd" "0x0"
    let other := sampleSpelling "0x0004" "0x01F" "0x00ABCD" "-0x00"
    Document.ofTree (some document.toTree) = .ok document ∧
      Document.ofTree (some other.toTree) = .ok other ∧ document.Respells other ∧
      (∃ plan, ofDocument document (some 40) = .ok plan ∧ ofDocument other (some 40) = .ok plan) ∧
      ∃ reason : PlanError, ofDocument other (some 30) = .error (.refused reason) ∧
        reason.code = .skipOutOfRange ∧ reason.structureName? = some "block" := by
  intro document other
  have read : Document.ofTree (some document.toTree) = .ok document := rfl
  have otherRead : Document.ofTree (some other.toTree) = .ok other := rfl
  have align : Literal.Respells "0x4" "0x0004" := @Literal.Respells.hex ['4'] ['4'] 0 3 rfl
  have count : Literal.Respells "0x1f" "0x01F" :=
    @Literal.Respells.hex ['1', 'f'] ['1', 'F'] 0 1 rfl
  have mark : Literal.RespellsBytes "0x0aBcd" "0x00ABCD" :=
    ⟨@Literal.Respells.hex ['a', 'B', 'c', 'd'] ['A', 'B', 'C', 'D'] 1 2 rfl, rfl⟩
  have zero : Literal.RespellsSigned "0x0" "-0x00" := .gained 1 2
  have respelled : document.Respells other :=
    { byteOrder := rfl
      constants := .some (.cons ⟨rfl, rfl, count⟩ .nil)
      structures := .cons
        { name := rfl, signature := .literal mark, byteOrder := rfl, hint := .some (.skip count)
          fields := .cons
            { name := rfl, content := .buffer (.literal count), align := .some align
              offset := .some zero } .nil }
        (.cons
          { name := rfl, signature := .constant "count", byteOrder := rfl
            hint := .some (.near (.offset count)), fields := .nil } .nil) }
  refine ⟨read, otherRead, respelled, ?_, ?_⟩
  · have planned : ∃ plan, ofDocument document (some 40) = .ok plan := ⟨_, rfl⟩
    rcases ofDocument_respelled read otherRead respelled (some 40) with both | ⟨_, _, refused, _⟩
    · exact both
    · simp [refused] at planned
  · have refused : ofDocument document (some 30) =
      .error (.refused (.declaration "block" (.skipPastEnd 31 30))) := rfl
    rcases ofDocument_respelled read otherRead respelled (some 30) with
      ⟨_, planned, _⟩ | ⟨error, reason, failed, otherFailed, code, structureName, _⟩
    · cases refused.symm.trans planned
    · cases refused.symm.trans failed
      exact ⟨reason, otherFailed, code.symm, structureName.symm⟩

end Plan

end Carve
