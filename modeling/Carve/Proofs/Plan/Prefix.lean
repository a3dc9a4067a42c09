import Carve.Proofs.Plan.Refusal

/-!
Documents with more structures behind their own.

What is declared behind a structure decides one thing about it: whether a reference to a structure
that is not declared in front of it is one to a later structure or to none
(`Plan.target_followedBy`).  All else that the compiler says of the first structures, it says with
any others behind them (`Plan.compileStructures_append`).
-/

namespace Except

variable {ε ε' α β : Type}

theorem mapError_ok {value : α} {change : ε → ε'} :
    (Except.ok value).mapError change = .ok value := rfl

theorem mapError_error {error : ε} {change : ε → ε'} :
    (Except.error error : Except ε α).mapError change = .error (change error) := rfl

theorem mapError_bind {result : Except ε α} {next : α → Except ε β} {change : ε → ε'} :
    (result >>= next).mapError change =
      result.mapError change >>= fun middle => (next middle).mapError change := by
  cases result <;> rfl

theorem mapError_map {result : Except ε α} {function : α → β} {change : ε → ε'} :
    (result.map function).mapError change = (result.mapError change).map function := by
  cases result <;> rfl

end Except

namespace Carve

/-- The error of a reference where more structures are declared behind. -/
def ReferenceError.followedBy (more : List String) (reference : Reference) :
    ReferenceError → ReferenceError
  | .noStructure =>
      if reference.owner.any more.contains then .laterStructure else .noStructure
  | error => error

def FieldError.followedBy (more : List String) : FieldError → FieldError
  | .reference written reason => .reference written (reason.followedBy more written)
  | error => error

def PlanError.followedBy (more : List String) : PlanError → PlanError
  | .field structureName fieldName error =>
      .field structureName fieldName (error.followedBy more)
  | error => error

def PlanFailure.followedBy (more : List String) : PlanFailure → PlanFailure
  | .refused error => .refused (error.followedBy more)
  | .fault reason => .fault reason

/-- The reference that a refusal is about. -/
def PlanError.reference? : PlanError → Option Reference
  | .field _ _ (.reference written _) => some written
  | _ => none

/-- The refusal is about a reference to a structure that is declared among those behind, and not
among those in front. -/
def PlanError.Awaits (error : PlanError) (front back : List Declaration) : Prop :=
  ∃ reference ∈ error.reference?, ∃ owner ∈ reference.owner,
    owner ∉ front.map Declaration.name ∧ owner ∈ back.map Declaration.name

namespace Plan

def Scope.followedBy (scope : Scope) (more : List String) : Scope :=
  { scope with structureNames := scope.structureNames ++ more }

variable (scope : Scope) (more : List String) (fields : List (Field Int))

theorem target_followedBy (reference : Reference) :
    target (scope.followedBy more) fields reference =
      (target scope fields reference).mapError (.followedBy more reference) := by
  unfold target Scope.followedBy
  dsimp only
  split
  · split
    · rfl
    · split <;> rfl
  · next elsewhere =>
      obtain ⟨owner, owned⟩ : ∃ owner, reference.owner = some owner := by
        cases owned : reference.owner with
        | none => simp [owned] at elsewhere
        | some owner => exact ⟨owner, rfl⟩
      simp only [owned, Option.getD_some]
      split
      · by_cases declared : owner ∈ scope.structureNames
        · simp [declared, Except.mapError_error, ReferenceError.followedBy]
        · by_cases behind : owner ∈ more <;>
            simp [declared, behind, Except.mapError_error, ReferenceError.followedBy, owned]
      · split <;> rfl

theorem checkReference_followedBy (reference : Reference) :
    checkReference (scope.followedBy more) fields reference =
      (checkReference scope fields reference).mapError (.followedBy more reference) := by
  rw [checkReference, checkReference, target_followedBy]
  cases target scope fields reference with
  | error error => rfl
  | ok content =>
      rw [Except.mapError_ok]
      dsimp only
      split <;> rfl

theorem compileSize_followedBy (size : Size String) :
    compileSize (scope.followedBy more) fields size =
      (compileSize scope fields size).mapError (.followedBy more) := by
  cases size with
  | literal value =>
      simp only [compileSize]
      cases Literal.parseHex value with
      | error error => rfl
      | ok count =>
          dsimp only
          split <;> rfl
  | reference reference =>
      simp only [compileSize, checkReference_followedBy]
      cases checkReference scope fields reference <;> rfl

theorem compileContent_followedBy (content : Content String) :
    compileContent (scope.followedBy more) fields content =
      (compileContent scope fields content).mapError (.followedBy more) := by
  cases content with
  | primitive type => rfl
  | buffer size | text size =>
      simp only [compileContent, compileSize_followedBy, Except.mapError_map]

theorem compileAlign_followedBy (written : Option String) :
    (compileAlign written).mapError (.followedBy more) = compileAlign written := by
  cases written with
  | none => rfl
  | some literal =>
      simp only [compileAlign]
      cases Literal.parseHex literal with
      | error error => rfl
      | ok align =>
          dsimp only
          split <;> rfl

theorem compileOffset_followedBy (written : Option String) :
    (compileOffset written).mapError (.followedBy more) = compileOffset written := by
  cases written with
  | none => rfl
  | some literal =>
      simp only [compileOffset]
      cases safeOffset Literal.parseSignedHex literal <;> rfl

theorem compileField_followedBy (field : Field String) :
    compileField (scope.followedBy more) fields field =
      (compileField scope fields field).mapError (.followedBy more) := by
  simp only [compileField, Except.mapError_bind, compileAlign_followedBy, compileOffset_followedBy,
    compileContent_followedBy]
  rfl

theorem compileFields_followedBy (declared : List (Field String)) :
    compileFields (scope.followedBy more) declared fields =
      (compileFields scope declared fields).mapError (.followedBy more) := by
  induction declared generalizing fields with
  | nil => rfl
  | cons field rest ih =>
      simp only [compileFields, compileField_followedBy]
      split
      · rfl
      · cases compileField scope fields field with
        | error error => rfl
        | ok compiled => exact ih (fields ++ [compiled])

section Structures

variable (constants : Constants) (order : ByteOrder) (streamLength : Option Int)

theorem compileSignature_followedBy (structureName : String) (source : SignatureSource) :
    (compileSignature constants structureName order source).mapError (.followedBy more) =
      compileSignature constants structureName order source := by
  cases compiled : compileSignature constants structureName order source with
  | ok bytes => rfl
  | error failure =>
      obtain ⟨reason, rfl, _⟩ := compileSignature_eq_error compiled
      rfl

theorem compileStructure_followedBy :
    compileStructure constants order streamLength (scope.followedBy more) =
      (compileStructure constants order streamLength scope).mapError (.followedBy more) := by
  have fields : (compileFields (scope.followedBy more) scope.declaration.fields []).mapError
      PlanFailure.refused = ((compileFields scope scope.declaration.fields []).mapError
        PlanFailure.refused).mapError (.followedBy more) := by
    rw [compileFields_followedBy]
    cases compileFields scope scope.declaration.fields [] <;> rfl
  have hint : ((compileOptionalHint streamLength scope.declaration.hint).mapError fun error =>
      PlanFailure.refused (.declaration scope.declaration.name error)).mapError
        (PlanFailure.followedBy more) =
      (compileOptionalHint streamLength scope.declaration.hint).mapError fun error =>
        .refused (.declaration scope.declaration.name error) := by
    cases compileOptionalHint streamLength scope.declaration.hint <;> rfl
  simp only [compileStructure, Except.mapError_bind, compileSignature_followedBy, hint, ← fields]
  rfl

/-- The first structures compile as without those behind them, and these from there on. -/
theorem compileStructures_append (names : List String) (front back : List Declaration)
    (layouts : List Layout) :
    compileStructures constants order streamLength (names ++ more) (front ++ back) layouts =
      (compileStructures constants order streamLength names front layouts).mapError
        (.followedBy more) >>= fun reached =>
          compileStructures constants order streamLength (names ++ more) back reached := by
  induction front generalizing layouts with
  | nil => rfl
  | cons declaration rest ih =>
      have alike := compileStructure_followedBy
        { declaration, earlier := layouts, structureNames := names } more constants order
        streamLength
      simp only [Scope.followedBy] at alike
      simp only [List.cons_append, compileStructures, alike]
      split
      · rfl
      · cases compileStructure constants order streamLength
            { declaration, earlier := layouts, structureNames := names } with
        | error failure => rfl
        | ok layout => exact ih (layouts ++ [layout])

end Structures

variable {scope : Scope} {fields : List (Field Int)} {document : Document}

/-- A reference is refused for want of a structure exactly where no structure has its owner's name.
-/
theorem checkReference_noStructure {reference : Reference} {reason : ReferenceError}
    (within : scope.Within document)
    (failed : checkReference scope fields reference = .error reason) :
    reason = .noStructure ↔
      ∃ owner ∈ reference.owner, owner ∉ document.structures.map Declaration.name := by
  have own : scope.declaration.name ∈ document.structures.map Declaration.name :=
    List.mem_map_of_mem within.declared
  have scanned := within.earlier
  rw [within.names] at scanned
  unfold checkReference target at failed
  dsimp only at failed
  by_cases isLocal : reference.IsLocal scope.declaration.name
  · have all :
        reference.owner.all (fun owner => decide (owner = scope.declaration.name)) = true := by
      simpa [Option.all_eq_true, Reference.IsLocal] using isLocal
    have declared : ¬ ∃ owner ∈ reference.owner,
        owner ∉ document.structures.map Declaration.name := by
      intro undeclared
      obtain ⟨owner, owned, absent⟩ := undeclared
      exact absent (isLocal owner owned ▸ own)
    rw [if_pos all] at failed
    refine ⟨fun same => ?_, fun absent => absurd absent declared⟩
    subst same
    cases fields.find? fun field => field.name = reference.field <;> grind
  · obtain ⟨owner, owned, foreign⟩ : ∃ owner, reference.owner = some owner ∧
        owner ≠ scope.declaration.name := by
      simpa [Reference.IsLocal] using isLocal
    have missing : (∃ owner ∈ reference.owner,
        owner ∉ document.structures.map Declaration.name) ↔
        owner ∉ document.structures.map Declaration.name := by
      simp only [owned, Option.mem_some_iff, exists_eq_left']
    simp only [owned, Option.all_some, decide_eq_true_eq, if_neg foreign, Option.getD_some,
      within.names, List.contains_iff_mem] at failed
    rw [missing]
    cases found : scope.earlier.find? fun layout => layout.name = owner with
    | none =>
        by_cases declared : owner ∈ document.structures.map Declaration.name
        · simp only [found, if_pos declared] at failed
          cases failed
          refine ⟨fun same => ?_, fun absent => absurd declared absent⟩
          cases same
        · simp only [found, if_neg declared] at failed
          cases failed
          exact ⟨fun _ => declared, fun _ => rfl⟩
    | some layout =>
        have named : layout.name = owner := by simpa using List.find?_some found
        have declared := scanned layout (List.mem_of_find?_eq_some found)
        rw [named] at declared
        refine ⟨fun same => ?_, fun absent => absurd declared absent⟩
        subst same
        simp only [found] at failed
        cases layout.fields.find? fun field => field.name = reference.field <;> grind

section Document

variable {front back : List Declaration} {streamLength : Option Int}

theorem ofDocument_noStructure {structureName fieldName : String} {reference : Reference}
    {reason : ReferenceError} (failed : ofDocument document streamLength =
      .error (.refused (.field structureName fieldName (.reference reference reason)))) :
    reason = .noStructure ↔
      ∃ owner ∈ reference.owner, owner ∉ document.structures.map Declaration.name := by
  obtain ⟨_, same, refuses⟩ := ofDocument_eq_error failed
  cases same
  cases refuses with
  | field within _ cause =>
      rcases cause with same | refused
      · cases same
      · exact checkReference_noStructure within (compileField_reference_error refused)

theorem ofDocument_followedBy (back : List Declaration) {failure : PlanFailure}
    (failed : ofDocument { document with structures := front } streamLength = .error failure) :
    ofDocument { document with structures := front ++ back } streamLength =
      .error (failure.followedBy (back.map Declaration.name)) := by
  simp only [ofDocument, List.map_append, compileStructures_append] at failed ⊢
  rcases Except.bind_eq_error.mp failed with refused | ⟨constants, collected, failed⟩
  · obtain ⟨reason, _, rfl⟩ := Except.mapError_eq_error.mp refused
    rw [refused]
    rfl
  rcases Except.bind_eq_error.mp failed with refused | ⟨layouts, _, failed⟩
  · rw [collected]
    simp only [bind, Except.bind, refused]
    rfl
  · contradiction

theorem ofDocument_take {plan : Plan}
    (compiled : ofDocument { document with structures := front ++ back } streamLength = .ok plan) :
    ofDocument { document with structures := front } streamLength =
      .ok { plan with layouts := plan.layouts.take front.length } := by
  simp only [ofDocument, List.map_append, compileStructures_append] at compiled ⊢
  obtain ⟨constants, collected, compiled⟩ := Except.bind_eq_ok.mp compiled
  obtain ⟨layouts, done, compiled⟩ := Except.bind_eq_ok.mp compiled
  cases compiled
  obtain ⟨reached, doneFront, doneBack⟩ := Except.bind_eq_ok.mp done
  rw [Except.mapError_eq_ok] at doneFront
  obtain ⟨first, compiledFront, rfl⟩ := compileStructures_compiled doneBack
  obtain ⟨behind, compiledBack, same⟩ := compileStructures_compiled doneFront
  rw [List.nil_append] at same
  have size : front.length = reached.length := by
    simpa [same] using congrArg List.length compiledBack.names.symm
  rw [collected, size, List.take_left]
  simp only [bind, Except.bind, doneFront]
  rfl

/-- A document is planned with more structures behind its own as it is without them.  The one thing
that they change is the fault of a reference to one of them: without them it names no structure, and
with them a later one. -/
theorem ofDocument_prefix (document : Document) (front back : List Declaration)
    (streamLength : Option Int) :
    (∀ plan, ofDocument { document with structures := front ++ back } streamLength = .ok plan →
      ofDocument { document with structures := front } streamLength =
        .ok { plan with layouts := plan.layouts.take front.length }) ∧
    ∀ failure, ofDocument { document with structures := front } streamLength = .error failure →
      ∃ error other, failure = .refused error ∧
        ofDocument { document with structures := front ++ back } streamLength =
          .error (.refused other) ∧
        other.structureName? = error.structureName? ∧ other.fieldName? = error.fieldName? ∧
        (error.Awaits front back →
          error.code = .undeclaredReference ∧ other.code = .forwardReference) ∧
        (¬ error.Awaits front back → other.code = error.code) := by
  refine ⟨fun plan => ofDocument_take, fun failure failed => ?_⟩
  have whole := ofDocument_followedBy back failed
  obtain ⟨error, rfl, _⟩ := ofDocument_eq_error failed
  refine ⟨error, error.followedBy (back.map Declaration.name), rfl, whole, ?_⟩
  cases error with
  | constant reason | declaration structureName reason =>
      simp [PlanError.followedBy, PlanError.Awaits, PlanError.reference?]
  | field structureName fieldName reason =>
      cases reason with
      | duplicate | malformed error | notPowerOfTwo literal | sizeTooLarge literal =>
          simp [PlanError.followedBy, FieldError.followedBy, PlanError.Awaits, PlanError.reference?]
      | reference reference reason =>
          have unknown := ofDocument_noStructure failed
          refine ⟨rfl, rfl, fun awaits => ?_, fun waitsNot => ?_⟩
          · obtain ⟨_, ⟨⟩, owner, owned, absent, behind⟩ := awaits
            cases unknown.mpr ⟨owner, owned, absent⟩
            have declared : reference.owner.any (back.map Declaration.name).contains = true := by
              rw [Option.mem_def.mp owned, Option.any_some]
              exact List.contains_iff_mem.mpr behind
            simp only [PlanError.followedBy, FieldError.followedBy, ReferenceError.followedBy,
              declared, if_true]
            exact ⟨rfl, rfl⟩
          · cases reason with
            | laterField | laterStructure | noField owner | notInteger => rfl
            | noStructure =>
                obtain ⟨owner, owned, absent⟩ := unknown.mp rfl
                have undeclared : reference.owner.any (back.map Declaration.name).contains ≠
                    true := by
                  rw [Option.mem_def.mp owned, Option.any_some]
                  intro behind
                  exact waitsNot ⟨reference, rfl, owner, owned, absent,
                    List.contains_iff_mem.mp behind⟩
                simp only [PlanError.followedBy, FieldError.followedBy, ReferenceError.followedBy,
                  if_neg undeclared]

example :
    let size : Reference := { field := "length", owner := some "head" }
    let body : Declaration :=
      { name := "body", signature := .literal "0x62", byteOrder := none, hint := none
        fields := [{ name := "data", content := .buffer (.reference size)
                     align := none, offset := none }] }
    let head : Declaration :=
      { name := "head", signature := .literal "0x61", byteOrder := none, hint := none
        fields := [] }
    let refused (reason : ReferenceError) : PlanFailure :=
      .refused (.field "body" "data" (.reference size reason))
    ofDocument ⟨none, none, [body]⟩ none = .error (refused .noStructure) ∧
      ofDocument ⟨none, none, [body, head]⟩ none = .error (refused .laterStructure) :=
  ⟨rfl, rfl⟩

end Document

end Plan

end Carve
