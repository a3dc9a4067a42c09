import Carve.Proofs.Plan.Outline

namespace Carve.Plan

/-- A structure is compiled in a document that declares some in front of it, which the layouts stem
from, and some behind. -/
structure Reaches (scope : Scope) (earlier later : List Declaration) : Prop where
  names : scope.structureNames = earlier.map Declaration.name ++
    scope.declaration.name :: later.map Declaration.name
  scanned : EachAfter Layout.WellFormed scope.earlier
  structures : scope.earlier.map Layout.outline = earlier.map Declaration.outline

/-- A field is compiled at a site, and the fields compiled so far stem from those in front. -/
structure Stands (scope : Scope) (fields : List (Field Int)) (site : Site) : Prop
    extends Reaches scope site.earlier site.later where
  named : scope.declaration.name = site.structureName
  declared : scope.declaration.fields = site.before ++ site.field :: site.after
  distinct : (fields.map Field.name).Nodup
  fields : fields.map Field.outline = site.before.map Field.outline

/-- What the search for the target of a reference comes to. -/
inductive Finds (site : Site) (reference : Reference) : Except ReferenceError (Content Int) → Prop
  | seen {content : Content Int} (seen : Field String) (sees : reference.Sees site seen) :
      Finds site reference (.ok content)
  | later {error : ReferenceError} (awaits : reference.Awaits site)
      (code : ∀ structureName fieldName, (PlanError.field structureName fieldName
        (.reference reference error)).code = .forwardReference) :
      Finds site reference (.error error)
  | nowhere {error : ReferenceError} (undeclared : ¬ reference.Awaits site)
      (code : ∀ structureName fieldName, (PlanError.field structureName fieldName
        (.reference reference error)).code = .undeclaredReference) :
      Finds site reference (.error error)

namespace Stands

variable {scope : Scope} {fields : List (Field Int)} {site : Site} {reference : Reference}

/-- What a reference sees among the declarations the compiler finds among the layouts. -/
theorem target_of_sees (stands : Stands scope fields site) {seen : Field String}
    (sees : reference.Sees site seen) : ∃ content, target scope fields reference = .ok content ∧
      content.isReferenceable = seen.content.isReferenceable := by
  cases sees with
  | inside isLocal declared named =>
      obtain ⟨field, member, same⟩ := List.exists_mem_of_map_eq stands.fields.symm declared
      obtain ⟨sameName, sameKind⟩ := Prod.mk.inj same
      have own : reference.owner.all (fun owner => decide (owner = scope.declaration.name)) := by
        simpa [Option.all_eq_true, Reference.IsLocal, stands.named] using isLocal
      have found := List.find?_key stands.distinct member
      simp only [sameName, named] at found
      exact ⟨field.content, by simp [target, own, found], sameKind⟩
  | outside source foreign scanned owned declared named =>
      obtain ⟨layout, inFront, same⟩ := List.exists_mem_of_map_eq stands.structures.symm scanned
      obtain ⟨sameName, sameFields⟩ := Prod.mk.inj same
      obtain ⟨field, member, sameField⟩ := List.exists_mem_of_map_eq sameFields.symm declared
      obtain ⟨sameFieldName, sameKind⟩ := Prod.mk.inj sameField
      have apart : source.name ≠ scope.declaration.name := by
        simpa [Reference.IsLocal, owned, stands.named] using foreign
      have foundLayout := List.find?_key (Layout.names_distinct stands.scanned) inFront
      have distinct := stands.scanned.mem (fun _ _ valid => valid.distinct) inFront
      have found := List.find?_key distinct member
      simp only [sameName] at foundLayout
      simp only [sameFieldName, named] at found
      exact ⟨field.content, by simp [target, owned, apart, foundLayout, found], sameKind⟩

theorem fieldNames (stands : Stands scope fields site) :
    fields.map Field.name = site.before.map Field.name :=
  Field.names_of_outline stands.fields

theorem target_local (stands : Stands scope fields site)
    (isLocal : reference.IsLocal site.structureName) :
    Finds site reference (target scope fields reference) := by
  have own : reference.owner.all (fun owner => decide (owner = scope.declaration.name)) := by
    simpa [Option.all_eq_true, Reference.IsLocal, stands.named] using isLocal
  simp only [target, if_pos own]
  cases found : fields.find? fun field => field.name = reference.field with
  | some field =>
      obtain ⟨seen, declared, same⟩ :=
        List.exists_mem_of_map_eq stands.fields (List.mem_of_find?_eq_some found)
      have named : field.name = reference.field := by simpa using List.find?_some found
      exact .seen seen (.inside isLocal declared ((Prod.mk.inj same).1.trans named))
  | none =>
      have absent : reference.field ∉ site.before.map Field.name := by
        rw [← stands.fieldNames]
        simpa [List.find?_eq_none] using found
      by_cases declared : scope.declaration.fields.any fun field => field.name = reference.field
      · obtain ⟨field, member, named⟩ : ∃ field ∈ scope.declaration.fields,
            field.name = reference.field := by simpa using declared
        rw [stands.declared] at member
        have behind : field ∈ site.field :: site.after :=
          (List.mem_append.mp member).resolve_left fun inFront =>
            absent (named ▸ List.mem_map_of_mem inFront)
        simp only [if_pos declared]
        exact .later (.inside field isLocal behind named) fun _ _ => rfl
      · simp only [if_neg declared]
        refine .nowhere (fun awaits => ?_) fun _ _ => rfl
        cases awaits with
        | outside source foreign => exact foreign isLocal
        | inside field _ member named =>
            refine declared (List.any_eq_true.mpr ⟨field, ?_, decide_eq_true named⟩)
            exact stands.declared ▸ List.mem_append_right _ member

theorem target_foreign (stands : Stands scope fields site)
    (foreign : ¬ reference.IsLocal site.structureName) :
    Finds site reference (target scope fields reference) := by
  obtain ⟨owner, owned, apart⟩ : ∃ owner, reference.owner = some owner ∧
      owner ≠ site.structureName := by
    simpa [Reference.IsLocal] using foreign
  have elsewhere : ¬ owner = scope.declaration.name := stands.named ▸ apart
  simp only [target, owned, Option.all_some, decide_eq_true_eq, if_neg elsewhere, Option.getD_some]
  cases scanned : scope.earlier.find? fun layout => layout.name = owner with
  | none =>
      have absent : owner ∉ site.earlier.map Declaration.name := by
        rw [← Layout.names_of_outline stands.structures]
        simpa [List.find?_eq_none] using scanned
      have declared : owner ∈ scope.structureNames ↔ owner ∈ site.later.map Declaration.name := by
        simp only [stands.names, List.mem_append, List.mem_cons, absent, elsewhere, false_or]
      simp only [List.contains_iff_mem, declared]
      by_cases behind : owner ∈ site.later.map Declaration.name
      · obtain ⟨source, member, rfl⟩ := List.mem_map.mp behind
        have unscanned : ∀ other ∈ site.earlier, other.name ≠ source.name :=
          fun other inFront same => absent (same ▸ List.mem_map_of_mem inFront)
        simp only [if_pos behind]
        exact .later (.outside source foreign owned unscanned member) fun _ _ => rfl
      · simp only [if_neg behind]
        refine .nowhere (fun awaits => ?_) fun _ _ => rfl
        cases awaits with
        | inside field isLocal => exact foreign isLocal
        | outside source _ named _ member =>
            cases owned.symm.trans named
            exact behind (List.mem_map_of_mem member)
  | some layout =>
      obtain ⟨source, inFront, same⟩ :=
        List.exists_mem_of_map_eq stands.structures (List.mem_of_find?_eq_some scanned)
      obtain ⟨sameName, sameFields⟩ := Prod.mk.inj same
      have named : layout.name = owner := by simpa using List.find?_some scanned
      have ofSource : reference.owner = some source.name := by rw [owned, sameName, named]
      dsimp only
      cases found : layout.fields.find? fun field => field.name = reference.field with
      | some field =>
          obtain ⟨seen, declared, alike⟩ :=
            List.exists_mem_of_map_eq sameFields.symm (List.mem_of_find?_eq_some found)
          have namedField : field.name = reference.field := by simpa using List.find?_some found
          exact .seen seen (.outside source foreign inFront ofSource declared
            ((Prod.mk.inj alike).1.trans namedField))
      | none =>
          refine .nowhere (fun awaits => ?_) fun _ _ => rfl
          cases awaits with
          | inside field isLocal => exact foreign isLocal
          | outside other _ ofOther unscanned =>
              exact unscanned source inFront (Option.some.inj (ofSource.symm.trans ofOther))

theorem target_finds (stands : Stands scope fields site) (reference : Reference) :
    Finds site reference (target scope fields reference) := by
  by_cases isLocal : reference.IsLocal site.structureName
  · exact stands.target_local isLocal
  · exact stands.target_foreign isLocal

theorem unseen (stands : Stands scope fields site) {error : ReferenceError}
    (failed : target scope fields reference = .error error) :
    ¬ ∃ seen, reference.Sees site seen := by
  intro visible
  obtain ⟨seen, sees⟩ := visible
  obtain ⟨content, found, _⟩ := stands.target_of_sees sees
  rw [failed] at found
  contradiction

theorem supplies_iff (stands : Stands scope fields site) {content : Content Int}
    (found : target scope fields reference = .ok content) {seen : Field String}
    (sees : reference.Sees site seen) :
    seen.content.SuppliesSize ↔ content.isReferenceable = true := by
  obtain ⟨same, again, alike⟩ := stands.target_of_sees sees
  cases found.symm.trans again
  rw [alike, Content.isReferenceable_iff]

end Stands

end Carve.Plan
