import Carve.Proofs.Plan.Checks
import Carve.Proofs.Plan.Compiled

/-- Of two lists that give the same, each element of one has a fellow in the other. -/
theorem List.exists_mem_of_map_eq {α β γ : Type} {first : List α} {second : List β} {f : α → γ}
    {g : β → γ} (same : first.map f = second.map g) {element : α} (member : element ∈ first) :
    ∃ fellow ∈ second, g fellow = f element :=
  List.mem_map.mp (same ▸ List.mem_map_of_mem member)

namespace Carve

section Outline

variable {α β : Type}

theorem Content.isReferenceable_iff {content : Content α} :
    content.isReferenceable = true ↔ content.SuppliesSize := by
  cases content with
  | buffer size | text size => simp [isReferenceable, SuppliesSize]
  | primitive type =>
      cases type with
      | f32 | f64 =>
          simp [isReferenceable, SuppliesSize, Primitive.isReferenceable, Primitive.isInteger]
      | integer type =>
          simp only [isReferenceable, Primitive.isReferenceable, Primitive.isInteger, Bool.true_and,
            decide_eq_true_eq, SuppliesSize, primitive.injEq, Primitive.integer.injEq,
            exists_eq_left']
          exact Iff.rfl

def Field.outline (field : Field α) : String × Bool := (field.name, field.content.isReferenceable)

def Layout.outline (layout : Layout) : String × List (String × Bool) :=
  (layout.name, layout.fields.map Field.outline)

def Declaration.outline (declaration : Declaration) : String × List (String × Bool) :=
  (declaration.name, declaration.fields.map Field.outline)

theorem Field.names_of_outline {fields : List (Field α)} {others : List (Field β)}
    (same : fields.map outline = others.map outline) :
    fields.map Field.name = others.map Field.name := by
  simpa [List.map_map, Function.comp_def, outline] using congrArg (List.map Prod.fst) same

theorem Field.supply_of_outline {fields : List (Field α)} {others : List (Field β)}
    (same : fields.map outline = others.map outline) {name : String}
    (supply : ∃ field ∈ fields, field.name = name ∧ field.content.SuppliesSize) :
    ∃ field ∈ others, field.name = name ∧ field.content.SuppliesSize := by
  obtain ⟨field, member, named, integer⟩ := supply
  obtain ⟨other, present, alike⟩ := List.exists_mem_of_map_eq same member
  obtain ⟨sameName, sameKind⟩ := Prod.mk.inj alike
  rw [← Content.isReferenceable_iff, ← sameKind, Content.isReferenceable_iff] at integer
  exact ⟨other, present, sameName.trans named, integer⟩

theorem Layout.names_of_outline {layouts : List Layout} {declarations : List Declaration}
    (same : layouts.map outline = declarations.map Declaration.outline) :
    layouts.map Layout.name = declarations.map Declaration.name := by
  simpa [List.map_map, Function.comp_def, outline, Declaration.outline] using
    congrArg (List.map Prod.fst) same

theorem Reference.grounded_iff_targets {reference : Reference} {enclosing : String}
    {layouts : List Layout} {earlier : List Declaration} {fields : List (Field Int)}
    {before : List (Field String)}
    (sameStructures : layouts.map Layout.outline = earlier.map Declaration.outline)
    (sameFields : fields.map Field.outline = before.map Field.outline) :
    reference.Grounded enclosing layouts fields ↔ reference.Targets enclosing earlier before := by
  constructor
  · intro grounded
    cases grounded with
    | inside field isLocal declared named integer =>
        rw [Content.isReferenceable_iff] at integer
        refine ⟨fun _ => ?_, fun foreign => absurd isLocal foreign⟩
        exact Field.supply_of_outline sameFields ⟨field, declared, named, integer⟩
    | outside source field owned foreign scanned declared named integer =>
        rw [Content.isReferenceable_iff] at integer
        refine ⟨fun isLocal => absurd (isLocal _ owned) foreign, fun _ => ?_⟩
        obtain ⟨declaration, present, same⟩ := List.exists_mem_of_map_eq sameStructures scanned
        obtain ⟨sameName, sameOutline⟩ := Prod.mk.inj same
        exact ⟨declaration, present, sameName ▸ owned,
          Field.supply_of_outline sameOutline.symm ⟨field, declared, named, integer⟩⟩
  · intro targets
    obtain ⟨inside, outside⟩ := targets
    by_cases isLocal : reference.IsLocal enclosing
    · obtain ⟨field, declared, named, integer⟩ :=
        Field.supply_of_outline sameFields.symm (inside isLocal)
      exact .inside field isLocal declared named (Content.isReferenceable_iff.mpr integer)
    · obtain ⟨declaration, present, owned, supply⟩ := outside isLocal
      obtain ⟨source, scanned, same⟩ := List.exists_mem_of_map_eq sameStructures.symm present
      obtain ⟨sameName, sameOutline⟩ := Prod.mk.inj same
      obtain ⟨field, declared, named, integer⟩ := Field.supply_of_outline sameOutline.symm supply
      have foreign : source.name ≠ enclosing := by
        intro own
        refine isLocal fun owner other => ?_
        rw [owned, Option.mem_some_iff] at other
        rw [← other, ← sameName, own]
      exact .outside source field (sameName ▸ owned) foreign scanned declared named
        (Content.isReferenceable_iff.mpr integer)

end Outline

namespace Plan

variable {scope : Scope} {fields : List (Field Int)} {reference : Reference}

theorem checkReference_eq_ok (scanned : EachAfter Layout.WellFormed scope.earlier)
    (distinct : (fields.map Field.name).Nodup) :
    checkReference scope fields reference = .ok () ↔
      reference.Grounded scope.declaration.name scope.earlier fields := by
  refine ⟨checkReference_grounded, ?_⟩
  intro grounded
  cases grounded with
  | inside field isLocal declared named integer =>
      have own : reference.owner.all (fun owner => decide (owner = scope.declaration.name)) := by
        simpa [Option.all_eq_true, Reference.IsLocal] using isLocal
      have found := List.find?_key distinct declared
      simp only [named] at found
      simp [checkReference, target, own, found, integer]
  | outside source field owned foreign inFront declared named integer =>
      have names := Layout.names_distinct scanned
      have distinctSource : (source.fields.map Field.name).Nodup :=
        scanned.mem (fun _ _ valid => valid.distinct) inFront
      have foundSource := List.find?_key names inFront
      have found := List.find?_key distinctSource declared
      simp only [named] at found
      simp [checkReference, target, owned, foreign, foundSource, found, integer]

theorem compileContent_isReferenceable {content : Content String} {compiled : Content Int}
    (done : compileContent scope fields content = .ok compiled) :
    compiled.isReferenceable = content.isReferenceable := by
  cases content with
  | primitive type =>
      cases done
      rfl
  | buffer size | text size =>
      obtain ⟨_, _, rfl⟩ := Except.map_eq_ok.mp done
      rfl

theorem compileField_outline {field : Field String} {compiled : Field Int}
    (done : compileField scope fields field = .ok compiled) : compiled.outline = field.outline := by
  have named := compileField_name done
  unfold compileField at done
  obtain ⟨align, _, done⟩ := Except.bind_eq_ok.mp done
  obtain ⟨offset, _, done⟩ := Except.bind_eq_ok.mp done
  obtain ⟨content, filled, done⟩ := Except.bind_eq_ok.mp done
  cases done
  simp [Field.outline, compileContent_isReferenceable filled]

theorem compileFields_outline {declared : List (Field String)} {compiled : List (Field Int)}
    (done : compileFields scope declared fields = .ok compiled) :
    compiled.map Field.outline = fields.map Field.outline ++ declared.map Field.outline := by
  induction declared generalizing fields with
  | nil =>
      cases done
      simp
  | cons field rest ih =>
      simp only [compileFields] at done
      split at done
      · contradiction
      · split at done
        · contradiction
        · next first compiledFirst =>
            simp [ih done, compileField_outline compiledFirst]

theorem compileStructure_outline {constants : Constants} {order : ByteOrder}
    {streamLength : Option Int} {layout : Layout}
    (compiled : compileStructure constants order streamLength scope = .ok layout) :
    layout.outline = scope.declaration.outline := by
  unfold compileStructure at compiled
  obtain ⟨fields, fieldsDone, compiled⟩ := Except.bind_eq_ok.mp compiled
  obtain ⟨signature, _, compiled⟩ := Except.bind_eq_ok.mp compiled
  obtain ⟨hint, _, compiled⟩ := Except.bind_eq_ok.mp compiled
  cases compiled
  have same := compileFields_outline (Except.mapError_eq_ok.mp fieldsDone)
  simpa [Layout.outline, Declaration.outline] using same

end Plan

end Carve
