import Carve.Proofs.Plan.Outline
import Carve.Proofs.Plan.Signature

namespace Carve.Plan

theorem isPowerOfTwo_iff {value : Nat} :
    isPowerOfTwo value = true ↔ ∃ exponent, value = 2 ^ exponent := by
  simp only [isPowerOfTwo, Bool.and_eq_true, decide_eq_true_eq]
  exact Nat.ne_zero_and_sub_one_eq_zero_iff_isPowerOfTwo

theorem compileAlign_exists_iff {written : Option String} :
    (∃ align, compileAlign written = .ok align) ↔ ∀ literal ∈ written, ∃ exponent,
      Literal.Spells literal (2 ^ exponent) ∧ 2 ^ exponent ≤ maxSizeLimit := by
  cases written with
  | none => simp [compileAlign]
  | some literal =>
      simp only [compileAlign, Option.mem_some_iff, forall_eq', ← Literal.parseHex_eq_ok]
      cases Literal.parseHex literal with
      | error error => simp
      | ok value =>
          have accepted : (isPowerOfTwo value && decide (value ≤ maxSizeLimit)) = true ↔
              ∃ exponent, value = 2 ^ exponent ∧ 2 ^ exponent ≤ maxSizeLimit := by
            rw [Bool.and_eq_true, isPowerOfTwo_iff, decide_eq_true_eq]
            constructor
            · intro power
              obtain ⟨⟨exponent, rfl⟩, small⟩ := power
              exact ⟨exponent, rfl, small⟩
            · intro power
              obtain ⟨exponent, rfl, small⟩ := power
              exact ⟨⟨exponent, rfl⟩, small⟩
          simp only [Except.ok.injEq, ← accepted]
          split <;> simp [*]

theorem safeOffset_eq_ok {parse : String → Except Literal.Error Int} {literal : String}
    {offset : Int} : safeOffset parse literal = .ok offset ↔
      parse literal = .ok offset ∧ offset.natAbs ≤ Number.maxSafe := by
  unfold safeOffset Literal.toSafeOffset
  cases parse literal with
  | error error => simp
  | ok value =>
      dsimp only
      split <;> simp <;> grind

theorem compileOffset_exists_iff {written : Option String} :
    (∃ offset, compileOffset written = .ok offset) ↔ ∀ literal ∈ written, ∃ offset,
      Literal.SpellsSigned literal offset ∧ offset.natAbs ≤ Number.maxSafe := by
  cases written with
  | none => simp [compileOffset]
  | some literal =>
      simp only [compileOffset, Option.mem_some_iff, forall_eq', ← Literal.parseSignedHex_eq_ok,
        ← safeOffset_eq_ok]
      cases safeOffset Literal.parseSignedHex literal <;> simp

section Field

variable {scope : Scope} {fields : List (Field Int)} {earlier : List Declaration}
  {before : List (Field String)}
  (checked : ∀ reference, checkReference scope fields reference = .ok () ↔
    reference.Targets scope.declaration.name earlier before)
include checked

theorem compileSize_exists_iff {size : Size String} :
    (∃ compiled, compileSize scope fields size = .ok compiled) ↔
      (∀ literal, size = .literal literal →
        ∃ count, Literal.Spells literal count ∧ count ≤ maxSizeLimit) ∧
      ∀ reference, size = .reference reference →
        reference.Targets scope.declaration.name earlier before := by
  cases size with
  | literal literal =>
      simp only [compileSize, Size.literal.injEq, forall_eq', reduceCtorEq, false_implies,
        implies_true, and_true, ← Literal.parseHex_eq_ok]
      cases Literal.parseHex literal with
      | error error => simp
      | ok count =>
          by_cases large : maxSizeLimit < count
          · simp [large, Nat.not_le.mpr large]
          · simp [large, Nat.not_lt.mp large]
  | reference reference =>
      simp only [compileSize, reduceCtorEq, false_implies, implies_true, true_and,
        Size.reference.injEq, forall_eq', ← checked]
      cases checkReference scope fields reference <;> simp

theorem compileContent_exists_iff {content : Content String} :
    (∃ compiled, compileContent scope fields content = .ok compiled) ↔
      (∀ literal, content.size? = some (.literal literal) →
        ∃ count, Literal.Spells literal count ∧ count ≤ maxSizeLimit) ∧
      ∀ reference, content.size? = some (.reference reference) →
        reference.Targets scope.declaration.name earlier before := by
  cases content with
  | primitive type => simp [compileContent, Content.size?]
  | buffer size | text size =>
      simp only [compileContent, Except.map_exists_iff, Content.size?, Option.some.injEq]
      exact compileSize_exists_iff checked

theorem compileField_exists_iff {field : Field String} :
    (∃ compiled, compileField scope fields field = .ok compiled) ↔
      field.Legal scope.declaration.name earlier before := by
  simp only [compileField, Except.bind_eq_ok]
  constructor
  · intro accepted
    obtain ⟨compiled, align, aligned, offset, placed, content, filled, _⟩ := accepted
    obtain ⟨count, reference⟩ := (compileContent_exists_iff checked).mp ⟨content, filled⟩
    exact {
      align := compileAlign_exists_iff.mp ⟨align, aligned⟩
      offset := compileOffset_exists_iff.mp ⟨offset, placed⟩
      count, reference }
  · intro legal
    obtain ⟨align, aligned⟩ := compileAlign_exists_iff.mpr legal.align
    obtain ⟨offset, placed⟩ := compileOffset_exists_iff.mpr legal.offset
    obtain ⟨content, filled⟩ :=
      (compileContent_exists_iff checked).mpr ⟨legal.count, legal.reference⟩
    exact ⟨_, align, aligned, offset, placed, content, filled, rfl⟩

end Field

theorem compileFields_exists_iff {scope : Scope} {earlier : List Declaration}
    {before : List (Field String)} {fields : List (Field Int)} {declared : List (Field String)}
    (scanned : EachAfter Layout.WellFormed scope.earlier)
    (sameStructures : scope.earlier.map Layout.outline = earlier.map Declaration.outline)
    (compiled : EachAfter (Field.WellFormed scope.declaration.name scope.earlier) fields)
    (sameFields : fields.map Field.outline = before.map Field.outline) :
    (∃ result, compileFields scope declared fields = .ok result) ↔
      EachAfter (fun front field => (∀ other ∈ before ++ front, other.name ≠ field.name) ∧
        field.Legal scope.declaration.name earlier (before ++ front)) declared := by
  induction declared generalizing fields before with
  | nil => simp [compileFields, eachAfter_nil]
  | cons field rest ih =>
      have distinct : (fields.map Field.name).Nodup :=
        compiled.distinct fun _ _ valid => valid.fresh
      have legal : (∃ first, compileField scope fields field = .ok first) ↔
          field.Legal scope.declaration.name earlier before :=
        compileField_exists_iff fun reference => (checkReference_eq_ok scanned distinct).trans
          (Reference.grounded_iff_targets sameStructures sameFields)
      have fresh : (fields.any fun other => other.name = field.name) = false ↔
          ∀ other ∈ before, other.name ≠ field.name := by
        have member : field.name ∈ fields.map Field.name ↔ field.name ∈ before.map Field.name := by
          rw [Field.names_of_outline sameFields]
        simpa using not_congr member
      rw [eachAfter_cons, compileFields, List.append_nil, ← fresh, ← legal]
      cases unused : fields.any fun other => other.name = field.name with
      | true => simp
      | false =>
          cases head : compileField scope fields field with
          | error error => simp
          | ok first =>
              have freshHere : ∀ other ∈ fields, other.name ≠ field.name := by simpa using unused
              have sameNext : (fields ++ [first]).map Field.outline =
                  (before ++ [field]).map Field.outline := by
                simp [sameFields, compileField_outline head]
              simpa using ih (compiled.concat (compileField_wellFormed freshHere head)) sameNext

theorem parseOffset_exists_iff (literal : String) (property : Int → Prop) :
    (∃ offset, parseOffset literal = .ok offset ∧ property offset) ↔
      ∃ offset : Nat, Literal.Spells literal offset ∧ offset ≤ Number.maxSafe ∧
        property offset := by
  simp only [parseOffset, safeOffset_eq_ok, Except.map_eq_ok, Literal.parseHex_eq_ok]
  constructor
  · intro parsed
    obtain ⟨_, ⟨⟨number, spells, rfl⟩, small⟩, holds⟩ := parsed
    exact ⟨number, spells, small, holds⟩
  · intro spelled
    obtain ⟨number, spells, small, holds⟩ := spelled
    exact ⟨number, ⟨⟨number, spells, rfl⟩, small⟩, holds⟩

theorem compileHint_exists_iff {streamLength : Option Int} {hint : Hint String} :
    (∃ compiled, compileHint streamLength hint = .ok compiled) ↔ hint.Legal streamLength := by
  cases hint with
  | skip literal =>
      rw [Hint.Legal, ← parseOffset_exists_iff literal fun offset => ∀ length ∈ streamLength,
        offset ≤ length, compileHint]
      cases parseOffset literal with
      | error error => simp
      | ok offset =>
          cases streamLength with
          | none => simp
          | some length =>
              by_cases passed : length < offset
              · simp [passed]
              · simp [passed, Int.not_lt.mp passed]
  | near anchor =>
      cases anchor with
      | streamStart | streamEnd => simp [compileHint, Hint.Legal]
      | offset literal =>
          have legal := parseOffset_exists_iff literal fun _ => True
          simp only [and_true] at legal
          rw [Hint.Legal, ← legal, compileHint]
          cases parseOffset literal <;> simp

theorem compileOptionalHint_exists_iff {streamLength : Option Int}
    {written : Option (Hint String)} :
    (∃ compiled, compileOptionalHint streamLength written = .ok compiled) ↔
      ∀ hint ∈ written, hint.Legal streamLength := by
  cases written with
  | none => simp [compileOptionalHint]
  | some hint =>
      simp only [compileOptionalHint, Except.map_exists_iff, Option.mem_some_iff, forall_eq']
      exact compileHint_exists_iff

section Structure

variable {constants : Constants} {declared : List Constant} {order : ByteOrder}
  {streamLength : Option Int} {earlier before : List Declaration} {layouts : List Layout}

theorem compileStructure_exists_iff {scope : Scope} (lists : constants.Lists declared)
    (scanned : EachAfter Layout.WellFormed scope.earlier)
    (same : scope.earlier.map Layout.outline = earlier.map Declaration.outline) :
    (∃ layout, compileStructure constants order streamLength scope = .ok layout) ↔
      scope.declaration.Legal declared streamLength earlier := by
  have nothing : ([] : List (Field Int)).map Field.outline =
      ([] : List (Field String)).map Field.outline := rfl
  have fieldsLegal : (∃ fields, compileFields scope scope.declaration.fields [] = .ok fields) ↔
      (scope.declaration.fields.map Field.name).Nodup ∧
        EachAfter (Field.Legal scope.declaration.name earlier) scope.declaration.fields := by
    rw [← eachAfter_fresh_and_iff]
    exact compileFields_exists_iff scanned same eachAfter_nil nothing
  simp only [compileStructure, Except.bind_eq_ok, Except.mapError_eq_ok]
  constructor
  · intro accepted
    obtain ⟨_, fields, fieldsDone, signature, signatureDone, hint, hintDone, _⟩ := accepted
    obtain ⟨distinct, legal⟩ := fieldsLegal.mp ⟨fields, fieldsDone⟩
    exact {
      distinct
      fields := legal
      signature := (compileSignature_exists_iff lists).mp ⟨signature, signatureDone⟩
      hint := compileOptionalHint_exists_iff.mp ⟨hint, hintDone⟩ }
  · intro legal
    obtain ⟨fields, fieldsDone⟩ := fieldsLegal.mpr ⟨legal.distinct, legal.fields⟩
    obtain ⟨signature, signatureDone⟩ := (compileSignature_exists_iff lists).mpr legal.signature
    obtain ⟨hint, hintDone⟩ := compileOptionalHint_exists_iff.mpr legal.hint
    exact ⟨_, fields, fieldsDone, signature, signatureDone, hint, hintDone, rfl⟩

theorem compileStructures_exists_iff {declarations : List Declaration} {names : List String}
    (known : constants.WellFormed) (lists : constants.Lists declared)
    (scanned : EachAfter Layout.WellFormed layouts)
    (same : layouts.map Layout.outline = before.map Declaration.outline) :
    (∃ result, compileStructures constants order streamLength names declarations layouts =
      .ok result) ↔
      EachAfter (fun front declaration =>
        (∀ other ∈ before ++ front, other.name ≠ declaration.name) ∧
          declaration.Legal declared streamLength (before ++ front)) declarations := by
  induction declarations generalizing layouts before with
  | nil => simp [compileStructures, eachAfter_nil]
  | cons declaration rest ih =>
      have legal : (∃ layout, compileStructure constants order streamLength
            { declaration, earlier := layouts, structureNames := names } = .ok layout) ↔
          declaration.Legal declared streamLength before :=
        compileStructure_exists_iff lists scanned same
      have fresh : (layouts.any fun other => other.name = declaration.name) = false ↔
          ∀ other ∈ before, other.name ≠ declaration.name := by
        have member : declaration.name ∈ layouts.map Layout.name ↔
            declaration.name ∈ before.map Declaration.name := by
          rw [Layout.names_of_outline same]
        simpa using not_congr member
      rw [eachAfter_cons, compileStructures, List.append_nil, ← fresh, ← legal]
      cases unused : layouts.any fun other => other.name = declaration.name with
      | true => simp
      | false =>
          simp only [Bool.false_eq_true, if_false]
          cases head : compileStructure constants order streamLength
              { declaration, earlier := layouts, structureNames := names } with
          | error failure => simp
          | ok layout =>
              have freshHere : ∀ other ∈ layouts, other.name ≠ declaration.name := by
                simpa using unused
              have sameNext : (layouts ++ [layout]).map Layout.outline =
                  (before ++ [declaration]).map Declaration.outline := by
                simp [same, compileStructure_outline head]
              simpa using
                ih (scanned.concat (compileStructure_wellFormed known freshHere head)) sameNext

end Structure

/-- A document is planned if and only if it is legal: no defect slips through, and nothing legal is
refused. -/
theorem accepts_iff_legal (document : Document) (streamLength : Option Int) :
    (∃ plan, ofDocument document streamLength = .ok plan) ↔ document.Legal streamLength := by
  have noStructures : ([] : List Layout).map Layout.outline =
      ([] : List Declaration).map Declaration.outline := rfl
  have constantsLegal := @collectConstants_exists_iff (document.constants.getD []) .empty
  have structuresLegal (constants : Constants)
      (collected : collectConstants (document.constants.getD []) .empty = .ok constants) :
      (∃ layouts, compileStructures constants (document.byteOrder.getD .little) streamLength
        (document.structures.map Declaration.name) document.structures [] = .ok layouts) ↔
        (document.structures.map Declaration.name).Nodup ∧
          EachAfter (Declaration.Legal (document.constants.getD []) streamLength)
            document.structures := by
    have known := constants_wellFormed collected
    have lists := constants_list collected
    rw [← eachAfter_fresh_and_iff]
    exact compileStructures_exists_iff known lists eachAfter_nil noStructures
  simp only [ofDocument, Except.bind_eq_ok, Except.mapError_eq_ok]
  constructor
  · intro accepted
    obtain ⟨_, constants, collected, layouts, done, _⟩ := accepted
    obtain ⟨constantsDistinct, values⟩ := constantsLegal.mp ⟨constants, collected⟩
    obtain ⟨distinct, structures⟩ := (structuresLegal constants collected).mp ⟨layouts, done⟩
    exact { constantsDistinct, constants := values, distinct, structures }
  · intro legal
    obtain ⟨constants, collected⟩ := constantsLegal.mpr ⟨legal.constantsDistinct, legal.constants⟩
    obtain ⟨layouts, done⟩ :=
      (structuresLegal constants collected).mpr ⟨legal.distinct, legal.structures⟩
    exact ⟨_, constants, collected, layouts, done, rfl⟩

/-- Legal are a constant too large for its type that no signature uses, a size from a field of the
structure itself that is named in full, and a place past the end to search near to. -/
example : ∃ plan, ofDocument
    { byteOrder := none
      constants := some [{ name := "unused", type := ⟨false, .one⟩, value := "0x100" }]
      structures :=
        [{ name := "block", signature := .literal "0x61", byteOrder := none
           hint := some (.near (.offset "0x9"))
           fields :=
             [{ name := "size", content := .primitive (.integer ⟨false, .one⟩)
                align := none, offset := none },
              { name := "data", content := .buffer (.reference ⟨"size", some "block"⟩)
                align := none, offset := none }] }] } (some 4) = .ok plan :=
  ⟨_, rfl⟩

end Carve.Plan
