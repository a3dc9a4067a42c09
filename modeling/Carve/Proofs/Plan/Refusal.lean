import Carve.Proofs.Plan.Selection
import Carve.Proofs.Plan.Signature

namespace Carve

/-- The offset that a hint names, if it names one. -/
def Hint.offset? {α : Type} : Hint α → Option α
  | .skip offset | .near (.offset offset) => some offset
  | .near .streamStart | .near .streamEnd => none

namespace Plan

variable {scope : Scope} {fields : List (Field Int)} {constants : Constants}
  {structureName : String} {order : ByteOrder} {streamLength : Option Int}

theorem safeOffset_eq_error {parse : String → Except Literal.Error Int} {literal : String}
    {error : Literal.Error} (failed : safeOffset parse literal = .error error) :
    parse literal = .error error ∨ ∃ offset, parse literal = .ok offset ∧
      Number.maxSafe < offset.natAbs ∧ error = .unsafeOffset literal := by
  unfold safeOffset at failed
  split at failed
  · next malformed =>
      cases failed
      exact .inl malformed
  · next offset parsed =>
      unfold Literal.toSafeOffset at failed
      split at failed
      · contradiction
      · next large =>
          cases failed
          exact .inr ⟨offset, parsed, Nat.lt_of_not_le large, rfl⟩

section Field

variable {field : Field String} {reason : FieldError}

theorem compileAlign_eq_error {written : Option String}
    (failed : compileAlign written = .error reason) :
    ∃ literal, written = some literal ∧
      ((∃ error, Literal.parseHex literal = .error error ∧ reason = .malformed error) ∨
        reason = .notPowerOfTwo literal) := by
  cases written with
  | none => contradiction
  | some literal =>
      simp only [compileAlign] at failed
      split at failed
      · next error malformed =>
          cases failed
          exact ⟨literal, rfl, .inl ⟨error, malformed, rfl⟩⟩
      · split at failed
        · contradiction
        · cases failed
          exact ⟨literal, rfl, .inr rfl⟩

theorem compileOffset_eq_error {written : Option String}
    (failed : compileOffset written = .error reason) :
    ∃ literal error, written = some literal ∧
      safeOffset Literal.parseSignedHex literal = .error error ∧ reason = .malformed error := by
  cases written with
  | none => contradiction
  | some literal =>
      simp only [compileOffset] at failed
      split at failed
      · next error refused =>
          cases failed
          exact ⟨literal, error, rfl, refused, rfl⟩
      · contradiction

theorem compileSize_eq_error {size : Size String}
    (failed : compileSize scope fields size = .error reason) :
    (∃ literal, size = .literal literal ∧
      ((∃ error, Literal.parseHex literal = .error error ∧ reason = .malformed error) ∨
        ∃ count, Literal.parseHex literal = .ok count ∧ maxSizeLimit < count ∧
          reason = .sizeTooLarge literal)) ∨
    ∃ reference error, size = .reference reference ∧
      checkReference scope fields reference = .error error ∧
      reason = .reference reference error := by
  cases size with
  | literal literal =>
      simp only [compileSize] at failed
      split at failed
      · next error malformed =>
          cases failed
          exact .inl ⟨literal, rfl, .inl ⟨error, malformed, rfl⟩⟩
      · next count parsed =>
          split at failed
          · next large =>
              cases failed
              exact .inl ⟨literal, rfl, .inr ⟨count, parsed, large, rfl⟩⟩
          · contradiction
  | reference reference =>
      simp only [compileSize] at failed
      split at failed
      · next error refused =>
          cases failed
          exact .inr ⟨reference, error, rfl, refused, rfl⟩
      · contradiction

theorem compileContent_eq_error {content : Content String}
    (failed : compileContent scope fields content = .error reason) :
    ∃ size, content.size? = some size ∧ compileSize scope fields size = .error reason := by
  cases content with
  | primitive type => contradiction
  | buffer size | text size => exact ⟨size, rfl, Except.map_eq_error.mp failed⟩

theorem compileField_eq_error (failed : compileField scope fields field = .error reason) :
    compileAlign field.align = .error reason ∨ compileOffset field.offset = .error reason ∨
      ∃ size, field.content.size? = some size ∧ compileSize scope fields size = .error reason := by
  rcases Except.bind_eq_error.mp failed with refused | ⟨align, _, failed⟩
  · exact .inl refused
  rcases Except.bind_eq_error.mp failed with refused | ⟨offset, _, failed⟩
  · exact .inr (.inl refused)
  rcases Except.bind_eq_error.mp failed with refused | ⟨content, _, failed⟩
  · exact .inr (.inr (compileContent_eq_error refused))
  · contradiction

theorem compileField_reference_error {reference : Reference} {error : ReferenceError}
    (failed : compileField scope fields field = .error (.reference reference error)) :
    checkReference scope fields reference = .error error := by
  rcases compileField_eq_error failed with refused | refused | ⟨size, _, refused⟩
  · obtain ⟨_, _, ⟨_, _, same⟩ | same⟩ := compileAlign_eq_error refused <;> cases same
  · obtain ⟨_, _, _, _, same⟩ := compileOffset_eq_error refused
    cases same
  · rcases compileSize_eq_error refused with ⟨_, _, ⟨_, _, same⟩ | ⟨_, _, _, same⟩⟩ |
      ⟨_, _, _, checked, same⟩ <;> cases same
    exact checked

/-- A field is refused for its name or for what it declares, behind fields that compile. -/
theorem compileFields_eq_error {declared : List (Field String)} {error : PlanError}
    (failed : compileFields scope declared fields = .error error) :
    ∃ field ∈ declared, ∃ reached reason,
      error = .field scope.declaration.name field.name reason ∧
      (reason = .duplicate ∨ compileField scope reached field = .error reason) := by
  induction declared generalizing fields with
  | nil => contradiction
  | cons field rest ih =>
      simp only [compileFields] at failed
      split at failed
      · cases failed
        exact ⟨field, List.mem_cons_self, fields, .duplicate, rfl, .inl rfl⟩
      · split at failed
        · next reason refused =>
            cases failed
            exact ⟨field, List.mem_cons_self, fields, reason, rfl, .inr refused⟩
        · obtain ⟨culprit, member, reached, reason, same, cause⟩ := ih failed
          exact ⟨culprit, List.mem_cons_of_mem _ member, reached, reason, same, cause⟩

end Field

/-- A signature is refused for its literal or its constant; writing what these give never fails. -/
theorem compileSignature_eq_error {source : SignatureSource} {failure : PlanFailure}
    (failed : compileSignature constants structureName order source = .error failure) :
    ∃ reason, failure = .refused (.declaration structureName reason) ∧
      ((∃ literal error, source = .literal literal ∧ Literal.parseHex literal = .error error ∧
          reason = .malformed error) ∨
        ∃ name, source = .constant name ∧
          (reason = .unknownConstant name ∨ ∃ width, reason = .constantTooWide name width)) := by
  unfold compileSignature at failed
  split at failed
  · next refused =>
      cases failed
      cases source with
      | literal literal =>
          simp only [spelledSignature] at refused
          split at refused
          · next error malformed =>
              cases refused
              exact ⟨_, rfl, .inl ⟨literal, error, rfl, malformed, rfl⟩⟩
          · next number parsed =>
              obtain ⟨width, measured, _⟩ := (Literal.parseHex_eq_ok.mp parsed).hexByteLength_exists
              rw [measured] at refused
              contradiction
      | constant name =>
          simp only [spelledSignature] at refused
          split at refused
          · cases refused
            exact ⟨_, rfl, .inr ⟨name, rfl, .inl rfl⟩⟩
          · split at refused
            · contradiction
            · cases refused
              exact ⟨_, rfl, .inr ⟨name, rfl, .inr ⟨_, rfl⟩⟩⟩
  · next width number spelled =>
      obtain ⟨bytes, encoded, _⟩ := Integer.encode_of_fits (spelledSignature_fits spelled) order
      rw [encoded] at failed
      contradiction

/-- A hint is refused for its offset, or for the end of the stream in front of it. -/
theorem compileHint_eq_error {hint : Hint String} {reason : DeclarationError}
    (failed : compileHint streamLength hint = .error reason) :
    ∃ literal, hint.offset? = some literal ∧
      ((∃ error, parseOffset literal = .error error ∧ reason = .malformed error) ∨
        ∃ offset length, reason = .skipPastEnd offset length) := by
  cases hint with
  | skip literal =>
      refine ⟨literal, rfl, ?_⟩
      simp only [compileHint] at failed
      split at failed
      · next error refused =>
          cases failed
          exact .inl ⟨error, refused, rfl⟩
      · split at failed
        · contradiction
        · split at failed
          · cases failed
            exact .inr ⟨_, _, rfl⟩
          · contradiction
  | near anchor =>
      cases anchor with
      | offset literal =>
          refine ⟨literal, rfl, ?_⟩
          simp only [compileHint] at failed
          split at failed
          · next error refused =>
              cases failed
              exact .inl ⟨error, refused, rfl⟩
          · contradiction
      | streamStart | streamEnd => contradiction

theorem collectConstants_eq_error {declared : List Constant} {reason : ConstantError}
    (failed : collectConstants declared constants = .error reason) :
    ∃ constant ∈ declared, reason = .duplicate constant.name ∨
      ∃ error, Literal.parseHex constant.value = .error error ∧ reason = .malformed error := by
  induction declared generalizing constants with
  | nil => contradiction
  | cons constant rest ih =>
      simp only [collectConstants] at failed
      split at failed
      · cases failed
        exact ⟨constant, List.mem_cons_self, .inl rfl⟩
      · split at failed
        · next error malformed =>
            cases failed
            exact ⟨constant, List.mem_cons_self, .inr ⟨error, malformed, rfl⟩⟩
        · obtain ⟨culprit, member, cause⟩ := ih failed
          exact ⟨culprit, List.mem_cons_of_mem _ member, cause⟩

/-- A structure is refused for one of its fields, its signature or its hint. -/
theorem compileStructure_eq_error {failure : PlanFailure}
    (failed : compileStructure constants order streamLength scope = .error failure) :
    (∃ error, failure = .refused error ∧
      compileFields scope scope.declaration.fields [] = .error error) ∨
    compileSignature constants scope.declaration.name
      (scope.declaration.byteOrder.getD order) scope.declaration.signature = .error failure ∨
    ∃ hint reason, scope.declaration.hint = some hint ∧
      failure = .refused (.declaration scope.declaration.name reason) ∧
      compileHint streamLength hint = .error reason := by
  rcases Except.bind_eq_error.mp failed with refused | ⟨fields, _, failed⟩
  · obtain ⟨error, fieldsFailed, rfl⟩ := Except.mapError_eq_error.mp refused
    exact .inl ⟨error, rfl, fieldsFailed⟩
  rcases Except.bind_eq_error.mp failed with refused | ⟨signature, _, failed⟩
  · exact .inr (.inl refused)
  rcases Except.bind_eq_error.mp failed with refused | ⟨hint, _, failed⟩
  · obtain ⟨reason, hintFailed, rfl⟩ := Except.mapError_eq_error.mp refused
    cases hinted : scope.declaration.hint with
    | none =>
        rw [hinted] at hintFailed
        contradiction
    | some hint =>
        rw [hinted] at hintFailed
        exact .inr (.inr ⟨hint, reason, rfl, rfl, Except.map_eq_error.mp hintFailed⟩)
  · contradiction

/-- A declaration is refused for its name or for what it declares, behind structures that compile.
-/
theorem compileStructures_eq_error {names : List String} {declarations : List Declaration}
    {layouts : List Layout} {failure : PlanFailure}
    (failed : compileStructures constants order streamLength names declarations layouts =
      .error failure) :
    ∃ before declaration after reached,
      declarations = before ++ declaration :: after ∧
      compileStructures constants order streamLength names before layouts = .ok reached ∧
      (failure = .refused (.declaration declaration.name .duplicate) ∨
        compileStructure constants order streamLength
          { declaration, earlier := reached, structureNames := names } = .error failure) := by
  induction declarations generalizing layouts with
  | nil => contradiction
  | cons declaration rest ih =>
      simp only [compileStructures] at failed
      split at failed
      · cases failed
        exact ⟨[], declaration, rest, layouts, rfl, rfl, .inl rfl⟩
      · next unused =>
          split at failed
          · next refused =>
              cases failed
              exact ⟨[], declaration, rest, layouts, rfl, rfl, .inr refused⟩
          · next layout compiled =>
              obtain ⟨before, culprit, after, reached, rfl, done, cause⟩ := ih failed
              refine ⟨declaration :: before, culprit, after, reached, rfl, ?_, cause⟩
              simpa only [compileStructures, if_neg unused, compiled] using done

/-- The scope is that of a declaration of the document, with layouts of others. -/
structure Scope.Within (document : Document) (scope : Scope) : Prop where
  declared : scope.declaration ∈ document.structures
  names : scope.structureNames = document.structures.map Declaration.name
  earlier : ∀ layout ∈ scope.earlier, layout.name ∈ scope.structureNames

/-- The error of a check that a document fails, with what the check fails on. -/
inductive Refuses (document : Document) (streamLength : Option Int) : PlanError → Prop
  | constant {reason : ConstantError}
      (refused : collectConstants (document.constants.getD []) .empty = .error reason) :
      Refuses document streamLength (.constant reason)
  | duplicate {declaration : Declaration} (declared : declaration ∈ document.structures) :
      Refuses document streamLength (.declaration declaration.name .duplicate)
  | field {scope : Scope} {fields : List (Field Int)} {field : Field String} {reason : FieldError}
      (within : scope.Within document) (member : field ∈ scope.declaration.fields)
      (cause : reason = .duplicate ∨ compileField scope fields field = .error reason) :
      Refuses document streamLength (.field scope.declaration.name field.name reason)
  | signature {declaration : Declaration} {constants : Constants} {order : ByteOrder}
      {reason : DeclarationError} (declared : declaration ∈ document.structures)
      (refused : compileSignature constants declaration.name order declaration.signature =
        .error (.refused (.declaration declaration.name reason))) :
      Refuses document streamLength (.declaration declaration.name reason)
  | hint {declaration : Declaration} {hint : Hint String} {reason : DeclarationError}
      (declared : declaration ∈ document.structures) (hinted : declaration.hint = some hint)
      (refused : compileHint streamLength hint = .error reason) :
      Refuses document streamLength (.declaration declaration.name reason)

theorem Scope.Within.refuses {document : Document} (within : scope.Within document)
    {failure : PlanFailure}
    (failed : compileStructure constants order streamLength scope = .error failure) :
    ∃ error, failure = .refused error ∧ Refuses document streamLength error := by
  rcases compileStructure_eq_error failed with ⟨error, rfl, refused⟩ | refused |
    ⟨hint, reason, hinted, rfl, refused⟩
  · obtain ⟨field, member, fields, reason, rfl, cause⟩ := compileFields_eq_error refused
    exact ⟨_, rfl, .field within member cause⟩
  · obtain ⟨reason, rfl, _⟩ := compileSignature_eq_error refused
    exact ⟨_, rfl, .signature within.declared refused⟩
  · exact ⟨_, rfl, .hint within.declared hinted refused⟩

/-- A document without a plan fails one of the checks; there is no other failure. -/
theorem ofDocument_eq_error {document : Document} {failure : PlanFailure}
    (failed : ofDocument document streamLength = .error failure) :
    ∃ error, failure = .refused error ∧ Refuses document streamLength error := by
  rcases Except.bind_eq_error.mp failed with refused | ⟨constants, _, failed⟩
  · obtain ⟨reason, constantsFailed, rfl⟩ := Except.mapError_eq_error.mp refused
    exact ⟨_, rfl, .constant constantsFailed⟩
  rcases Except.bind_eq_error.mp failed with refused | ⟨layouts, _, failed⟩
  · obtain ⟨before, declaration, after, reached, split, done, cause⟩ :=
      compileStructures_eq_error refused
    obtain ⟨behind, compiled, rfl⟩ := compileStructures_compiled done
    have declared : declaration ∈ document.structures := by simp [split]
    rcases cause with rfl | refused
    · exact ⟨_, rfl, .duplicate declared⟩
    · refine Scope.Within.refuses ⟨declared, rfl, fun layout member => ?_⟩ refused
      have named : layout.name ∈ before.map Declaration.name :=
        compiled.names ▸ List.mem_map_of_mem member
      simp only [split, List.map_append]
      exact List.mem_append_left _ named
  · contradiction

end Plan

end Carve
