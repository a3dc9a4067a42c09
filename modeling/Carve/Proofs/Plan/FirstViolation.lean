import Carve.Proofs.Plan.Acceptance
import Carve.Proofs.Plan.Prefix
import Carve.Proofs.Plan.Target

theorem Except.mapError_mapError {ε ε' ε'' α : Type} {result : Except ε α} {first : ε → ε'}
    {second : ε' → ε''} :
    (result.mapError first).mapError second = result.mapError (second ∘ first) := by
  cases result <;> rfl

namespace Carve.Plan

section Field

variable {scope : Scope} {fields : List (Field Int)} {site : Site}

/-- The refusal for something that is wrong with the field of a site. -/
def refusal (site : Site) (reason : FieldError) : PlanFailure :=
  .refused (.field site.structureName site.field.name reason)

theorem reports_field {code : PlanError.Code} {violated : Prop} {reason : FieldError}
    (same : (PlanError.field site.structureName site.field.name reason).code = code) :
    (site.check code violated).Reports (.field site.structureName site.field.name reason) :=
  ⟨same, rfl, rfl⟩

theorem checkReference_judged (stands : Stands scope fields site) (reference : Reference) :
    Judged (site.referenceChecks reference)
      ((checkReference scope fields reference).mapError fun error =>
        refusal site (.reference reference error)) := by
  have finds := stands.target_finds reference
  rw [checkReference]
  cases searched : target scope fields reference with
  | error error =>
      have unseen := stands.unseen searched
      rw [searched] at finds
      cases finds with
      | later awaits code => exact .head ⟨unseen, awaits⟩ (reports_field (code ..))
      | nowhere undeclared code =>
          exact .cons (fun late => undeclared late.2)
            (.head ⟨unseen, undeclared⟩ (reports_field (code ..)))
  | ok content =>
      rw [searched] at finds
      cases finds with
      | seen seen sees =>
          refine .cons (fun late => late.1 ⟨seen, sees⟩)
            (.cons (fun absent => absent.1 ⟨seen, sees⟩) ?_)
          dsimp only
          split
          · next integer =>
              refine .cons (fun useless => ?_) (.nil ())
              obtain ⟨other, seesOther, useless⟩ := useless
              exact useless ((stands.supplies_iff searched seesOther).mpr integer)
          · next useless =>
              exact .head ⟨seen, sees, mt (stands.supplies_iff searched sees).mp useless⟩
                (reports_field rfl)

theorem compileAlign_judged :
    Judged site.alignChecks ((compileAlign site.field.align).mapError (refusal site)) := by
  rw [Site.alignChecks]
  cases site.field.align with
  | none => exact .nil none
  | some literal =>
      simp only [compileAlign, ← Literal.parseHex_eq_ok]
      cases Literal.parseHex literal with
      | error error => exact .head (by simp) (reports_field rfl)
      | ok number =>
          refine .cons (by simp) ?_
          have power : (isPowerOfTwo number && decide (number ≤ maxSizeLimit)) = true ↔
              ∃ exponent, number = 2 ^ exponent ∧ number ≤ maxSizeLimit := by
            rw [Bool.and_eq_true, isPowerOfTwo_iff, decide_eq_true_eq, exists_and_right]
          dsimp only
          split
          · next valid => exact .cons (by simpa using power.mp valid) (.nil _)
          · next invalid => exact .head (by simpa using mt power.mpr invalid) (reports_field rfl)

/-- A literal that is checked at once for its form and its range. -/
theorem judged_literal {α : Type} {violated : Prop} {result : Except FieldError α}
    (accepted : (∃ value, result = .ok value) ↔ ¬ violated)
    (code : ∀ reason, result = .error reason →
      (PlanError.field site.structureName site.field.name reason).code = .invalidLiteral) :
    Judged [site.check .invalidLiteral violated] (result.mapError (refusal site)) := by
  refine .single ?_ fun failure failed => ?_
  · simpa only [Except.mapError_eq_ok, Site.check_violated] using accepted
  · obtain ⟨reason, cause, rfl⟩ := Except.mapError_eq_error.mp failed
    exact ⟨_, rfl, reports_field (code reason cause)⟩

theorem compileOffset_judged :
    Judged site.offsetChecks ((compileOffset site.field.offset).mapError (refusal site)) := by
  rw [Site.offsetChecks]
  cases site.field.offset with
  | none => exact .nil none
  | some literal =>
      refine judged_literal ?_ fun reason failed => ?_
      · rw [compileOffset_exists_iff, Classical.not_not]
        simp only [Option.mem_some_iff, forall_eq']
      · obtain ⟨_, _, _, _, rfl⟩ := compileOffset_eq_error failed
        rfl

theorem compileSize_judged (stands : Stands scope fields site) (size : Size String) :
    Judged (site.sizeChecks size) ((compileSize scope fields size).mapError (refusal site)) := by
  cases size with
  | literal literal =>
      refine judged_literal ?_ fun reason failed => ?_
      · simp only [compileSize, ← Literal.parseHex_eq_ok, Classical.not_not]
        cases Literal.parseHex literal with
        | error error => simp
        | ok count =>
            by_cases large : maxSizeLimit < count
            · simp [large, Nat.not_le.mpr large]
            · simp [large, Nat.not_lt.mp large]
      · rcases compileSize_eq_error failed with ⟨_, _, ⟨_, _, rfl⟩ | ⟨_, _, _, rfl⟩⟩ |
          ⟨_, _, same, _⟩
        · rfl
        · rfl
        · cases same
  | reference reference =>
      have compiled : compileSize scope fields (.reference reference) =
          ((checkReference scope fields reference).mapError (.reference reference)).map
            fun _ => .reference reference := by
        rw [compileSize]
        cases checkReference scope fields reference <;> rfl
      rw [compiled, Except.mapError_map, Except.mapError_mapError]
      exact (checkReference_judged stands reference).map

theorem compileContent_judged (stands : Stands scope fields site) :
    Judged site.contentChecks
      ((compileContent scope fields site.field.content).mapError (refusal site)) := by
  rw [Site.contentChecks]
  cases site.field.content with
  | primitive type => exact .nil _
  | buffer size | text size =>
      rw [compileContent, Except.mapError_map]
      exact (compileSize_judged stands size).map

theorem compileField_judged (stands : Stands scope fields site) :
    Judged (site.alignChecks ++ (site.offsetChecks ++ site.contentChecks))
      ((compileField scope fields site.field).mapError (refusal site)) := by
  simp only [compileField, Except.mapError_bind]
  refine compileAlign_judged.bind fun align _ => compileOffset_judged.bind fun offset _ => ?_
  exact (compileContent_judged stands).finish

end Field

theorem compileFields_cons {scope : Scope} {field : Field String} {rest : List (Field String)}
    {fields : List (Field Int)} (fresh : ∀ other ∈ fields, other.name ≠ field.name) :
    compileFields scope (field :: rest) fields =
      (compileField scope fields field).mapError (.field scope.declaration.name field.name) >>=
        fun compiled => compileFields scope rest (fields ++ [compiled]) := by
  have unused : ¬ (fields.any fun earlier => earlier.name = field.name) = true := by
    simpa using fresh
  rw [compileFields, if_neg unused]
  cases compileField scope fields field <;> rfl

theorem compileFields_judged {scope : Scope} {earlier later : List Declaration}
    {before declared : List (Field String)} {fields : List (Field Int)}
    (reaches : Reaches scope earlier later)
    (split : scope.declaration.fields = before ++ declared)
    (compiled : EachAfter (Field.WellFormed scope.declaration.name scope.earlier) fields)
    (same : fields.map Field.outline = before.map Field.outline) :
    Judged (scope.declaration.fieldChecks earlier later before declared)
      ((compileFields scope declared fields).mapError .refused) := by
  induction declared generalizing before fields with
  | nil => exact .nil fields
  | cons field rest ih =>
      let site : Site :=
        { earlier, structureName := scope.declaration.name, later, before, field, after := rest }
      have stands : Stands scope fields site :=
        { reaches with
          named := rfl
          declared := split
          distinct := compiled.distinct fun _ _ valid => valid.fresh
          fields := same }
      have repeated : (∃ other ∈ before, other.name = field.name) ↔
          ∃ other ∈ fields, other.name = field.name := by
        simp only [← List.mem_map, stands.fieldNames, site]
      by_cases used : ∃ other ∈ fields, other.name = field.name
      · have refused : compileFields scope (field :: rest) fields =
            .error (.field scope.declaration.name field.name .duplicate) :=
          if_pos (by simpa using used)
        rw [refused]
        exact .head (repeated.mpr used) (reports_field rfl)
      · have fresh : ∀ other ∈ fields, other.name ≠ field.name := by simpa using used
        rw [compileFields_cons fresh, Except.mapError_bind]
        refine Judged.cons (mt repeated.mp used) (.bind ?_ fun first done => ?_)
        · rw [Except.mapError_mapError]
          exact compileField_judged stands
        · rw [Except.mapError_eq_ok, Except.mapError_eq_ok] at done
          refine ih (by rw [split, List.append_assoc, List.singleton_append])
            (compiled.concat (compileField_wellFormed fresh done)) ?_
          rw [List.map_append, List.map_append, same, List.map_singleton, List.map_singleton,
            compileField_outline done]

section Declaration

variable {constants : Constants} {declared : List Constant} {declaration : Declaration}

theorem reports_declaration {code : PlanError.Code} {violated : Prop} {reason : DeclarationError}
    (same : (PlanError.declaration declaration.name reason).code = code) :
    (declaration.check code violated).Reports (.declaration declaration.name reason) :=
  ⟨same, rfl, rfl⟩

theorem Constants.Lists.known_iff (lists : constants.Lists declared) {name : String} :
    (∃ constant ∈ declared, constant.name = name) ↔ ∃ entry, constants.find? name = some entry := by
  constructor
  · intro known
    obtain ⟨constant, member, rfl⟩ := known
    obtain ⟨number, _, found⟩ := lists.values constant member
    exact ⟨_, found⟩
  · intro found
    obtain ⟨entry, found⟩ := found
    have listed := Table.mem_names_of_find? found
    rwa [lists.names, List.mem_map] at listed

/-- The number of a constant has no room in its type. -/
theorem Constants.Lists.too_wide_iff (lists : constants.Lists declared) {name : String}
    {width number : Nat} (found : constants.find? name = some (width, number)) :
    (∃ constant ∈ declared, constant.name = name ∧
      ∃ value, Literal.Spells constant.value value ∧ 2 ^ constant.type.bits ≤ value) ↔
      ¬ Integer.fits number width = true := by
  constructor
  · intro large
    obtain ⟨constant, member, rfl, value, spells, large⟩ := large
    obtain ⟨_, again, entry⟩ := lists.values constant member
    cases spells.unique again
    cases found.symm.trans entry
    exact mt Integer.fits_natCast.mp (Nat.not_lt.mpr large)
  · intro outside
    obtain ⟨constant, member, rfl⟩ := lists.known_iff.mpr ⟨_, found⟩
    obtain ⟨_, spells, entry⟩ := lists.values constant member
    cases found.symm.trans entry
    have large := Nat.not_lt.mp (mt Integer.fits_natCast.mpr outside)
    exact ⟨constant, member, rfl, _, spells, large⟩

theorem compileSignature_judged (lists : constants.Lists declared) (order : ByteOrder) :
    Judged (declaration.signatureChecks declared)
      (compileSignature constants declaration.name order declaration.signature) := by
  rw [Declaration.signatureChecks]
  cases declaration.signature with
  | literal value =>
      refine .single ?_ fun failure failed => ?_
      · rw [compileSignature_exists_iff lists]
        simp [SignatureSource.Legal]
      · obtain ⟨_, rfl, ⟨_, _, _, _, rfl⟩ | ⟨_, same, _⟩⟩ := compileSignature_eq_error failed
        · exact ⟨_, rfl, reports_declaration rfl⟩
        · cases same
  | constant name =>
      simp only [compileSignature, spelledSignature, lists.known_iff]
      cases found : constants.find? name with
      | none => exact .head (by simp) (reports_declaration rfl)
      | some entry =>
          obtain ⟨width, number⟩ := entry
          rw [lists.too_wide_iff found]
          refine .cons (by simp) ?_
          by_cases fits : Integer.fits number width = true
          · obtain ⟨bytes, encoded, _⟩ := Integer.encode_of_fits fits order
            simp only [if_pos fits, encoded]
            exact .cons (fun large => large fits) (.nil bytes)
          · simp only [if_neg fits]
            exact .head fits (reports_declaration rfl)

theorem parseOffset_judged (literal : String) :
    Judged [declaration.offsetCheck literal] ((parseOffset literal).mapError fun error =>
      .refused (.declaration declaration.name (.malformed error))) := by
  refine .single ?_ fun failure failed => ?_
  · have accepted := parseOffset_exists_iff literal fun _ => True
    simpa only [Except.mapError_eq_ok, Declaration.offsetCheck, Declaration.check_violated,
      Classical.not_not, and_true] using accepted
  · obtain ⟨error, _, rfl⟩ := Except.mapError_eq_error.mp failed
    exact ⟨_, rfl, reports_declaration rfl⟩

theorem compileHint_near (streamLength : Option Int) (literal : String) :
    compileHint streamLength (.near (.offset literal)) =
      ((parseOffset literal).mapError .malformed).map fun offset => .near (.offset offset) := by
  rw [compileHint]
  cases parseOffset literal <;> rfl

theorem compileHint_skip (streamLength : Option Int) (literal : String) :
    compileHint streamLength (.skip literal) =
      (parseOffset literal).mapError .malformed >>= fun offset =>
        match streamLength with
        | none => .ok (.skip offset)
        | some length =>
            if length < offset then .error (.skipPastEnd offset length)
            else .ok (.skip offset) := by
  rw [compileHint]
  cases parseOffset literal <;> rfl

/-- An offset passes the end exactly if the number that its literal spells does. -/
theorem parseOffset_passes {streamLength : Option Int} {literal : String} {offset : Int}
    (parsed : parseOffset literal = .ok offset) :
    (∃ number : Nat, Literal.Spells literal number ∧ ∃ length ∈ streamLength, length < number) ↔
      ∃ length ∈ streamLength, length < offset := by
  obtain ⟨number, spells, _, rfl⟩ :=
    (parseOffset_exists_iff literal (· = offset)).mp ⟨offset, parsed, rfl⟩
  constructor
  · intro passed
    obtain ⟨other, again, behind⟩ := passed
    cases spells.unique again
    exact behind
  · exact fun passed => ⟨number, spells, passed⟩

theorem compileHint_judged (streamLength : Option Int) :
    Judged (declaration.hintChecks streamLength)
      ((compileOptionalHint streamLength declaration.hint).mapError fun reason =>
        .refused (.declaration declaration.name reason)) := by
  rw [Declaration.hintChecks]
  cases declaration.hint with
  | none => exact .nil none
  | some hint =>
      rw [compileOptionalHint, Except.mapError_map]
      refine .map ?_
      cases hint with
      | near anchor =>
          cases anchor with
          | streamStart | streamEnd => exact .nil _
          | offset literal =>
              rw [compileHint_near, Except.mapError_map, Except.mapError_mapError]
              exact (parseOffset_judged literal).map
      | skip literal =>
          rw [compileHint_skip, Except.mapError_bind, Except.mapError_mapError]
          refine (parseOffset_judged literal).bind fun offset parsed => ?_
          rw [parseOffset_passes (Except.mapError_eq_ok.mp parsed)]
          cases streamLength with
          | none => exact .cons (by simp) (.nil _)
          | some length =>
              by_cases passed : length < offset
              · simp only [if_pos passed]
                exact .head ⟨length, rfl, passed⟩ (reports_declaration rfl)
              · simp only [if_neg passed]
                exact .cons (by simpa using passed) (.nil _)

theorem compileStructure_judged {scope : Scope} {earlier later : List Declaration}
    (lists : constants.Lists declared) (reaches : Reaches scope earlier later) (order : ByteOrder)
    (streamLength : Option Int) :
    Judged (scope.declaration.fieldChecks earlier later [] scope.declaration.fields ++
        (scope.declaration.signatureChecks declared ++
          scope.declaration.hintChecks streamLength))
      (compileStructure constants order streamLength scope) := by
  refine (compileFields_judged reaches (List.nil_append _).symm eachAfter_nil rfl).bind
    fun fields _ => ?_
  refine (compileSignature_judged lists _).bind fun signature _ => ?_
  exact (compileHint_judged streamLength).finish

end Declaration

theorem collectConstants_cons {constant : Constant} {rest : List Constant} {known : Constants}
    (fresh : constant.name ∉ known.names) :
    collectConstants (constant :: rest) known =
      (Literal.parseHex constant.value).mapError .malformed >>= fun value =>
        collectConstants rest (known.insert constant.name (constant.type.width.bytes, value)) := by
  have unused : ¬ known.contains constant.name = true := by simpa [Table.contains] using fresh
  rw [collectConstants, if_neg unused]
  cases Literal.parseHex constant.value <;> rfl

theorem collectConstants_judged {before declared : List Constant} {known : Constants}
    (names : known.names = before.map Constant.name) :
    Judged (inOrder (fun before constant _ => constant.checks before) before declared)
      ((collectConstants declared known).mapError fun error => .refused (.constant error)) := by
  induction declared generalizing before known with
  | nil => exact .nil known
  | cons constant rest ih =>
      have repeated : (∃ other ∈ before, other.name = constant.name) ↔
          constant.name ∈ known.names := by
        rw [names, List.mem_map]
      by_cases used : constant.name ∈ known.names
      · have refused : collectConstants (constant :: rest) known =
            .error (.duplicate constant.name) :=
          if_pos (by simpa [Table.contains] using used)
        rw [refused]
        exact .head (repeated.mpr used) ⟨rfl, rfl, rfl⟩
      · rw [collectConstants_cons used, Except.mapError_bind, Except.mapError_mapError]
        refine Judged.cons (mt repeated.mp used) (.bind (.single ?_ fun failure failed => ?_)
          fun value parsed => ih ?_)
        · simp only [Except.mapError_eq_ok, Literal.parseHex_eq_ok, Constant.check_violated,
            Classical.not_not]
        · obtain ⟨error, _, rfl⟩ := Except.mapError_eq_error.mp failed
          exact ⟨_, rfl, rfl, rfl, rfl⟩
        · rw [Table.names_insert, if_neg used, names, List.map_append, List.map_singleton]

theorem compileStructures_cons {constants : Constants} {order : ByteOrder}
    {streamLength : Option Int} {names : List String} {declaration : Declaration}
    {rest : List Declaration} {layouts : List Layout}
    (fresh : ∀ other ∈ layouts, other.name ≠ declaration.name) :
    compileStructures constants order streamLength names (declaration :: rest) layouts =
      compileStructure constants order streamLength
        { declaration, earlier := layouts, structureNames := names } >>= fun layout =>
          compileStructures constants order streamLength names rest (layouts ++ [layout]) := by
  have unused : ¬ (layouts.any fun layout => layout.name = declaration.name) = true := by
    simpa using fresh
  simp only [compileStructures, if_neg unused]
  cases compileStructure constants order streamLength
    { declaration, earlier := layouts, structureNames := names } <;> rfl

theorem compileStructures_judged {constants : Constants} {declared : List Constant}
    {order : ByteOrder} {streamLength : Option Int} {names : List String}
    {before declarations : List Declaration} {layouts : List Layout}
    (known : constants.WellFormed) (lists : constants.Lists declared)
    (all : names = (before ++ declarations).map Declaration.name)
    (scanned : EachAfter Layout.WellFormed layouts)
    (same : layouts.map Layout.outline = before.map Declaration.outline) :
    Judged (inOrder (Declaration.checks declared streamLength) before declarations)
      (compileStructures constants order streamLength names declarations layouts) := by
  induction declarations generalizing layouts before with
  | nil => exact .nil layouts
  | cons declaration rest ih =>
      have reaches : Reaches { declaration, earlier := layouts, structureNames := names } before
          rest := ⟨by simp [all], scanned, same⟩
      have repeated : (∃ other ∈ before, other.name = declaration.name) ↔
          ∃ other ∈ layouts, other.name = declaration.name := by
        rw [← List.mem_map, ← List.mem_map, Layout.names_of_outline same]
      by_cases used : ∃ other ∈ layouts, other.name = declaration.name
      · have refused : compileStructures constants order streamLength names (declaration :: rest)
            layouts = .error (.refused (.declaration declaration.name .duplicate)) :=
          if_pos (by simpa using used)
        rw [refused]
        exact .head (repeated.mpr used) (reports_declaration rfl)
      · have fresh : ∀ other ∈ layouts, other.name ≠ declaration.name := by simpa using used
        rw [compileStructures_cons fresh]
        refine Judged.cons (mt repeated.mp used) (.bind
          (compileStructure_judged lists reaches order streamLength) fun layout done => ?_)
        refine ih (by rw [all, List.append_assoc, List.singleton_append])
          (scanned.concat (compileStructure_wellFormed known fresh done)) ?_
        rw [List.map_append, List.map_append, same, List.map_singleton, List.map_singleton,
          compileStructure_outline done]

theorem ofDocument_judged (document : Document) (streamLength : Option Int) :
    Judged (document.checks streamLength) (ofDocument document streamLength) := by
  have constantsJudged := @collectConstants_judged [] (document.constants.getD []) .empty rfl
  refine constantsJudged.bind fun constants done => ?_
  have collected := Except.mapError_eq_ok.mp done
  have known := constants_wellFormed collected
  have lists := constants_list collected
  exact (compileStructures_judged known lists rfl eachAfter_nil rfl).finish

/-- A document is planned, and then none of its checks is violated, or it is refused for the first
one that is, with the code of the check and the names of its structure and its field. -/
theorem ofDocument_reports_first (document : Document) (streamLength : Option Int) :
    (∃ plan, ofDocument document streamLength = .ok plan ∧
      ∀ check ∈ document.checks streamLength, ¬ check.violated) ∨
    ∃ (error : PlanError) (check : Check),
      ofDocument document streamLength = .error (.refused error) ∧
      check.IsFirst (document.checks streamLength) ∧ check.Reports error := by
  have judged := ofDocument_judged document streamLength
  cases result : ofDocument document streamLength with
  | ok plan =>
      rw [result] at judged
      cases judged with
      | passed _ kept => exact .inl ⟨plan, rfl, kept⟩
  | error failure =>
      rw [result] at judged
      cases judged with
      | refused error check first reported => exact .inr ⟨error, check, rfl, first, reported⟩

/-- The fields come before the signature and the hint, and of a field its offset before its size. -/
example :
    let later : Reference := { field := "size", owner := none }
    let document : Document :=
      { byteOrder := none, constants := none
        structures :=
          [{ name := "block", signature := .constant "mark", byteOrder := none
             hint := some (.skip "0x9")
             fields :=
               [{ name := "data", content := .buffer (.reference later)
                  align := none, offset := some "-0x1" },
                { name := "size", content := .primitive .f32, align := some "0x3"
                  offset := none }] }] }
    (document.checks (some 4)).map Check.code =
      [.duplicateStructure, .duplicateField, .invalidLiteral, .forwardReference,
        .undeclaredReference, .nonIntegerReference, .duplicateField, .invalidLiteral,
        .invalidAlignment, .unknownConstant, .invalidSignature, .invalidLiteral,
        .skipOutOfRange] ∧
      ofDocument document (some 4) =
        .error (.refused (.field "block" "data" (.reference later .laterField))) :=
  ⟨rfl, rfl⟩

end Carve.Plan
