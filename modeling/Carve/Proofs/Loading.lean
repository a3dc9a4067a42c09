import Carve.Proofs.Document.Grammar
import Carve.Proofs.Plan.Refusal
import Carve.Query

namespace Carve

namespace Literal

theorem Hex.parseHex_ne_error {literal : String} {error : Error} (hex : Hex literal) :
    parseHex literal ≠ .error error := by
  obtain ⟨number, spells⟩ := hex
  rw [parseHex_eq_ok.mpr spells]
  intro same
  cases same

theorem SignedHex.parseSignedHex_ne_error {literal : String} {error : Error}
    (hex : SignedHex literal) : parseSignedHex literal ≠ .error error := by
  obtain ⟨number, spells⟩ := hex
  rw [parseSignedHex_eq_ok.mpr spells]
  intro same
  cases same

end Literal

/-- The refusal is for the literal of a size or of an offset, whose number is out of range. -/
inductive PlanError.TooLarge (document : Document) : PlanError → Prop
  | size {declaration : Declaration} {field : Field String} {literal : String} {count : Nat}
      (declared : declaration ∈ document.structures) (member : field ∈ declaration.fields)
      (written : field.content.size? = some (.literal literal))
      (spells : Literal.Spells literal count) (large : maxSizeLimit < count) :
      TooLarge document (.field declaration.name field.name (.sizeTooLarge literal))
  | offset {declaration : Declaration} {field : Field String} {literal : String} {offset : Int}
      (declared : declaration ∈ document.structures) (member : field ∈ declaration.fields)
      (written : field.offset = some literal) (spells : Literal.SpellsSigned literal offset)
      (large : Number.maxSafe < offset.natAbs) :
      TooLarge document
        (.field declaration.name field.name (.malformed (.unsafeOffset literal)))
  | hint {declaration : Declaration} {hint : Hint String} {literal : String} {offset : Nat}
      (declared : declaration ∈ document.structures) (hinted : declaration.hint = some hint)
      (written : hint.offset? = some literal) (spells : Literal.Spells literal offset)
      (large : Number.maxSafe < offset) :
      TooLarge document (.declaration declaration.name (.malformed (.unsafeOffset literal)))

theorem Hint.Spelled.offset {hint : Hint String} {literal : String} (spelled : hint.Spelled)
    (written : hint.offset? = some literal) : Literal.Hex literal := by
  cases hint with
  | skip offset =>
      cases written
      exact spelled
  | near anchor =>
      cases anchor with
      | offset offset =>
          cases written
          exact spelled
      | streamStart | streamEnd => contradiction

theorem Document.Spelled.constant {document : Document} {constant : Constant}
    (spelled : document.Spelled) (member : constant ∈ document.constants.getD []) :
    constant.Spelled := by
  cases declared : document.constants with
  | none =>
      rw [declared] at member
      contradiction
  | some constants =>
      rw [declared] at member
      exact spelled.constants constants declared constant member

/-- An unsigned literal is read as an offset unless it is too large for one. -/
theorem Literal.Hex.parseOffset_error {literal : String} {error : Error} (hex : Hex literal)
    (failed : Plan.parseOffset literal = .error error) :
    ∃ offset, Spells literal offset ∧ Number.maxSafe < offset ∧ error = .unsafeOffset literal := by
  rcases Plan.safeOffset_eq_error failed with malformed | ⟨_, parsed, large, rfl⟩
  · exact absurd (Except.map_eq_error.mp malformed) hex.parseHex_ne_error
  · obtain ⟨offset, spelled, rfl⟩ := Except.map_eq_ok.mp parsed
    exact ⟨offset, parseHex_eq_ok.mp spelled, large, rfl⟩

namespace Plan

variable {document : Document} {streamLength : Option Int}

theorem compileField_invalidLiteral {scope : Scope} {fields : List (Field Int)}
    {field : Field String} {reason : FieldError} (within : scope.Within document)
    (member : field ∈ scope.declaration.fields) (spelled : field.Spelled)
    (failed : compileField scope fields field = .error reason)
    (code : (PlanError.field scope.declaration.name field.name reason).code = .invalidLiteral) :
    (PlanError.field scope.declaration.name field.name reason).TooLarge document := by
  rcases compileField_eq_error failed with refused | refused | ⟨size, sized, refused⟩
  · obtain ⟨literal, aligned, cause⟩ := compileAlign_eq_error refused
    rcases cause with ⟨error, malformed, rfl⟩ | rfl
    · exact absurd malformed (spelled.align literal aligned).parseHex_ne_error
    · contradiction
  · obtain ⟨literal, error, written, unread, rfl⟩ := compileOffset_eq_error refused
    rcases safeOffset_eq_error unread with malformed | ⟨offset, parsed, large, rfl⟩
    · exact absurd malformed (spelled.offset literal written).parseSignedHex_ne_error
    · exact .offset within.declared member written (Literal.parseSignedHex_eq_ok.mp parsed) large
  · rcases compileSize_eq_error refused with ⟨literal, rfl, cause⟩ | ⟨reference, error, _, _, rfl⟩
    · rcases cause with ⟨error, malformed, rfl⟩ | ⟨count, parsed, large, rfl⟩
      · have hex : Literal.Hex literal := spelled.size _ sized
        exact absurd malformed hex.parseHex_ne_error
      · exact .size within.declared member sized (Literal.parseHex_eq_ok.mp parsed) large
    · cases error <;> contradiction

theorem build_outcome {session : Session} :
    (build session document streamLength).outcome = ofDocument document streamLength := by
  unfold build
  cases ofDocument document streamLength <;> rfl

theorem ofDocument_invalidLiteral {error : PlanError} (spelled : document.Spelled)
    (failed : ofDocument document streamLength = .error (.refused error))
    (code : error.code = .invalidLiteral) : error.TooLarge document := by
  obtain ⟨_, same, refuses⟩ := ofDocument_eq_error failed
  cases same
  cases refuses with
  | constant refused =>
      obtain ⟨constant, member, cause⟩ := collectConstants_eq_error refused
      rcases cause with rfl | ⟨error, malformed, rfl⟩
      · contradiction
      · exact absurd malformed (spelled.constant member).value.parseHex_ne_error
  | duplicate => contradiction
  | field within member cause =>
      rcases cause with rfl | refused
      · contradiction
      · have fieldSpelled := (spelled.structures _ within.declared).fields _ member
        exact compileField_invalidLiteral within member fieldSpelled refused code
  | signature declared refused =>
      obtain ⟨_, same, cause⟩ := compileSignature_eq_error refused
      cases same
      rcases cause with ⟨literal, error, source, malformed, rfl⟩ | ⟨name, _, rfl | ⟨_, rfl⟩⟩
      · have hex : SignatureSource.Spelled (.literal literal) :=
          source ▸ (spelled.structures _ declared).signature
        exact absurd malformed (Literal.Hex.parseHex_ne_error hex)
      · contradiction
      · contradiction
  | hint declared hinted refused =>
      obtain ⟨literal, written, cause⟩ := compileHint_eq_error refused
      rcases cause with ⟨error, unread, rfl⟩ | ⟨_, _, rfl⟩
      · have hex := ((spelled.structures _ declared).hint _ hinted).offset written
        obtain ⟨offset, spells, large, rfl⟩ := hex.parseOffset_error unread
        exact .hint declared hinted written spells large
      · contradiction

end Plan

theorem Query.ofTree_refused {session : Session} {tree : Option Tree} {streamLength : Option Int}
    {error : PlanError}
    (refused : (ofTree session tree streamLength).outcome = .error (.refused error)) :
    ∃ document, Document.ofTree tree = .ok document ∧
      Plan.ofDocument document streamLength = .error (.refused error) := by
  cases read : Document.ofTree tree with
  | error issues =>
      simp only [ofTree, read] at refused
      cases refused
  | ok document =>
      simp only [ofTree, read, Plan.build_outcome] at refused
      split at refused
      · next planned =>
          cases refused
          exact ⟨document, rfl, planned⟩
      · cases refused
      · cases refused

/-- Loading gives a query, or tells that the tree is no document or that the document has no plan.
Where a literal is refused, it is well written and too large: no other literal gets past the
reading.  Nor does the planner fail in any other way on a document that has not been read. -/
theorem Query.ofTree_fails (session : Session) (tree : Option Tree) (streamLength : Option Int) :
    ((∃ query, (ofTree session tree streamLength).outcome = .ok query) ∨
      (∃ issues, (ofTree session tree streamLength).outcome = .error (.invalid issues)) ∨
      ∃ error, (ofTree session tree streamLength).outcome = .error (.refused error)) ∧
    (∀ error, (ofTree session tree streamLength).outcome = .error (.refused error) →
      error.code = .invalidLiteral →
        ∃ document, Document.ofTree tree = .ok document ∧ error.TooLarge document) ∧
    ∀ document failure, (Plan.build session document streamLength).outcome = .error failure →
      ∃ error, failure = .refused error := by
  refine ⟨?_, fun error refused code => ?_, fun document failure failed => ?_⟩
  · cases read : Document.ofTree tree with
    | error issues => exact .inr (.inl ⟨issues, by simp only [ofTree, read]⟩)
    | ok document =>
        cases planned : Plan.ofDocument document streamLength with
        | ok plan => exact .inl ⟨{ plan }, by simp only [ofTree, read, Plan.build_outcome, planned]⟩
        | error failure =>
            obtain ⟨error, rfl, _⟩ := Plan.ofDocument_eq_error planned
            exact .inr (.inr ⟨error, by simp only [ofTree, read, Plan.build_outcome, planned]⟩)
  · obtain ⟨document, read, planned⟩ := ofTree_refused refused
    have spelled := Document.ofTree_spelled read
    exact ⟨document, read, Plan.ofDocument_invalidLiteral spelled planned code⟩
  · obtain ⟨error, refused, _⟩ := Plan.ofDocument_eq_error (Plan.build_outcome ▸ failed)
    exact ⟨error, refused⟩

example (session : Session) :
    let size : Tree := .object [("kind", .string "literal"), ("value", .string "0x100000000")]
    let field : Tree :=
      .object [("kind", .string "buffer"), ("name", .string "data"), ("size", size)]
    let signature : Tree := .object [("kind", .string "literal"), ("value", .string "0x62")]
    let block : Tree := .object
      [("name", .string "block"), ("signature", signature), ("fields", .array [field])]
    (Query.ofTree session (some (.object [("structures", .array [block])])) none).outcome =
      .error (.refused (.field "block" "data" (.sizeTooLarge "0x100000000"))) := by
  rfl

end Carve
