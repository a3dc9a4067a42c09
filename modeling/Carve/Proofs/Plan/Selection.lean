import Carve.Proofs.Plan.Outline

namespace Carve

/-- Some structures of a document, in any order, under the same byte order and constants. -/
structure Document.Selects (selection document : Document) : Prop where
  byteOrder : selection.byteOrder = document.byteOrder
  constants : selection.constants = document.constants
  structures : ∃ kept, kept.Sublist document.structures ∧ selection.structures.Perm kept

theorem Document.Selects.subset {selection document : Document}
    (selects : selection.Selects document) : selection.structures ⊆ document.structures := by
  obtain ⟨kept, sublist, reordered⟩ := selects.structures
  exact fun _ member => sublist.subset (reordered.subset member)

namespace Plan

section Scope

variable {scope other : Scope} {fields others : List (Field Int)}

theorem compileSize_unique {size : Size String} {compiled again : Size Int}
    (done : compileSize scope fields size = .ok compiled)
    (doneAgain : compileSize other others size = .ok again) : compiled = again := by
  cases size with
  | literal literal =>
      simp only [compileSize] at done doneAgain
      exact Except.ok.inj (done.symm.trans doneAgain)
  | reference reference =>
      simp only [compileSize] at done doneAgain
      split at done
      · contradiction
      · split at doneAgain
        · contradiction
        · exact Except.ok.inj (done.symm.trans doneAgain)

theorem compileContent_unique {content : Content String} {compiled again : Content Int}
    (done : compileContent scope fields content = .ok compiled)
    (doneAgain : compileContent other others content = .ok again) : compiled = again := by
  cases content with
  | primitive type => exact Except.ok.inj (done.symm.trans doneAgain)
  | buffer size | text size =>
      obtain ⟨result, sized, rfl⟩ := Except.map_eq_ok.mp done
      obtain ⟨resultAgain, sizedAgain, rfl⟩ := Except.map_eq_ok.mp doneAgain
      rw [compileSize_unique sized sizedAgain]

theorem compileField_unique {field : Field String} {compiled again : Field Int}
    (done : compileField scope fields field = .ok compiled)
    (doneAgain : compileField other others field = .ok again) : compiled = again := by
  obtain ⟨align, aligned, done⟩ := Except.bind_eq_ok.mp done
  obtain ⟨offset, placed, done⟩ := Except.bind_eq_ok.mp done
  obtain ⟨content, filled, done⟩ := Except.bind_eq_ok.mp done
  obtain ⟨alignAgain, alignedAgain, doneAgain⟩ := Except.bind_eq_ok.mp doneAgain
  obtain ⟨offsetAgain, placedAgain, doneAgain⟩ := Except.bind_eq_ok.mp doneAgain
  obtain ⟨contentAgain, filledAgain, doneAgain⟩ := Except.bind_eq_ok.mp doneAgain
  cases aligned.symm.trans alignedAgain
  cases placed.symm.trans placedAgain
  cases compileContent_unique filled filledAgain
  exact Except.ok.inj (done.symm.trans doneAgain)

theorem compileFields_unique {declared : List (Field String)} {compiled again : List (Field Int)}
    (done : compileFields scope declared fields = .ok compiled)
    (doneAgain : compileFields other declared fields = .ok again) : compiled = again := by
  induction declared generalizing fields with
  | nil => exact Except.ok.inj (done.symm.trans doneAgain)
  | cons field rest ih =>
      simp only [compileFields] at done doneAgain
      split at done
      · contradiction
      · next unused =>
          rw [if_neg unused] at doneAgain
          split at done
          · contradiction
          · next first compiledFirst =>
              split at doneAgain
              · contradiction
              · next firstAgain compiledAgain =>
                  cases compileField_unique compiledFirst compiledAgain
                  exact ih done doneAgain

end Scope

variable {constants : Constants} {order : ByteOrder} {streamLength : Option Int}

/-- What a declaration compiles to, whatever stands in front of it. -/
def Compiles (constants : Constants) (order : ByteOrder) (streamLength : Option Int)
    (declaration : Declaration) (layout : Layout) : Prop :=
  ∃ scope : Scope, scope.declaration = declaration ∧
    compileStructure constants order streamLength scope = .ok layout

theorem Compiles.unique {declaration : Declaration} {layout again : Layout}
    (compiled : Compiles constants order streamLength declaration layout)
    (compiledAgain : Compiles constants order streamLength declaration again) :
    layout = again := by
  obtain ⟨scope, rfl, done⟩ := compiled
  obtain ⟨other, same, doneAgain⟩ := compiledAgain
  obtain ⟨fields, fieldsDone, done⟩ := Except.bind_eq_ok.mp done
  obtain ⟨fieldsAgain, fieldsDoneAgain, doneAgain⟩ := Except.bind_eq_ok.mp doneAgain
  rw [Except.mapError_eq_ok] at fieldsDone fieldsDoneAgain
  rw [same] at fieldsDoneAgain doneAgain
  cases compileFields_unique fieldsDone fieldsDoneAgain
  exact Except.ok.inj (done.symm.trans doneAgain)

/-- The layouts of declarations, one for each. -/
inductive Compiled (constants : Constants) (order : ByteOrder) (streamLength : Option Int) :
    List Declaration → List Layout → Prop
  | nil : Compiled constants order streamLength [] []
  | cons {declaration : Declaration} {layout : Layout} {rest : List Declaration}
      {layouts : List Layout} (head : Compiles constants order streamLength declaration layout)
      (tail : Compiled constants order streamLength rest layouts) :
      Compiled constants order streamLength (declaration :: rest) (layout :: layouts)

theorem compileStructures_compiled {names : List String} {declarations : List Declaration}
    {before layouts : List Layout}
    (done : compileStructures constants order streamLength names declarations before =
      .ok layouts) :
    ∃ behind, Compiled constants order streamLength declarations behind ∧
      layouts = before ++ behind := by
  induction declarations generalizing before with
  | nil =>
      cases done
      exact ⟨[], .nil, (List.append_nil _).symm⟩
  | cons declaration rest ih =>
      simp only [compileStructures] at done
      split at done
      · contradiction
      · split at done
        · contradiction
        · next layout compiled =>
            obtain ⟨behind, tail, rfl⟩ := ih done
            exact ⟨layout :: behind, .cons ⟨_, rfl, compiled⟩ tail, by simp⟩

theorem ofDocument_compiled {document : Document} {plan : Plan}
    (compiled : ofDocument document streamLength = .ok plan) :
    ∃ constants, collectConstants (document.constants.getD []) .empty = .ok constants ∧
      Compiled constants (document.byteOrder.getD .little) streamLength document.structures
        plan.layouts := by
  obtain ⟨constants, collected, compiled⟩ := Except.bind_eq_ok.mp compiled
  obtain ⟨layouts, done, compiled⟩ := Except.bind_eq_ok.mp compiled
  cases compiled
  obtain ⟨behind, each, rfl⟩ := compileStructures_compiled done
  exact ⟨constants, Except.mapError_eq_ok.mp collected, each⟩

namespace Compiled

variable {declarations : List Declaration} {layouts : List Layout}

theorem outlines (compiled : Compiled constants order streamLength declarations layouts) :
    layouts.map Layout.outline = declarations.map Declaration.outline := by
  induction compiled with
  | nil => rfl
  | cons head tail ih =>
      obtain ⟨scope, rfl, done⟩ := head
      exact congr (congrArg List.cons (compileStructure_outline done)) ih

theorem names (compiled : Compiled constants order streamLength declarations layouts) :
    layouts.map Layout.name = declarations.map Declaration.name := by
  simpa [List.map_map, Function.comp_def, Layout.outline, Declaration.outline] using
    congrArg (List.map Prod.fst) compiled.outlines

theorem fieldNames (compiled : Compiled constants order streamLength declarations layouts)
    {index : Nat} {declaration : Declaration} {layout : Layout}
    (declared : declarations[index]? = some declaration) (there : layouts[index]? = some layout) :
    layout.fields.map Field.name = declaration.fields.map Field.name := by
  have same : layout.outline = declaration.outline := by
    have outlines := congrArg (fun outlines => outlines[index]?) compiled.outlines
    simpa [declared, there] using outlines
  exact Field.names_of_outline (congrArg Prod.snd same)

theorem layout_exists (compiled : Compiled constants order streamLength declarations layouts)
    {declaration : Declaration} (declared : declaration ∈ declarations) :
    ∃ layout ∈ layouts, Compiles constants order streamLength declaration layout := by
  induction compiled with
  | nil => contradiction
  | cons head tail ih =>
      rcases List.mem_cons.mp declared with rfl | later
      · exact ⟨_, List.mem_cons_self, head⟩
      · obtain ⟨layout, member, compiles⟩ := ih later
        exact ⟨layout, List.mem_cons_of_mem _ member, compiles⟩

theorem declaration_exists (compiled : Compiled constants order streamLength declarations layouts)
    {layout : Layout} (member : layout ∈ layouts) :
    ∃ declaration ∈ declarations, Compiles constants order streamLength declaration layout := by
  induction compiled with
  | nil => contradiction
  | cons head tail ih =>
      rcases List.mem_cons.mp member with rfl | later
      · exact ⟨_, List.mem_cons_self, head⟩
      · obtain ⟨declaration, declared, compiles⟩ := ih later
        exact ⟨declaration, List.mem_cons_of_mem _ declared, compiles⟩

end Compiled

theorem layouts_of_selection {document selection : Document} {plan chosen : Plan}
    (selects : selection.Selects document)
    (compiled : ofDocument document streamLength = .ok plan)
    (compiledSelection : ofDocument selection streamLength = .ok chosen) :
    chosen.layouts ⊆ plan.layouts := by
  obtain ⟨constants, collected, each⟩ := ofDocument_compiled compiled
  obtain ⟨constantsAgain, collectedAgain, eachChosen⟩ := ofDocument_compiled compiledSelection
  rw [selects.constants] at collectedAgain
  cases collected.symm.trans collectedAgain
  rw [selects.byteOrder] at eachChosen
  intro layout member
  obtain ⟨declaration, declared, compiles⟩ := eachChosen.declaration_exists member
  obtain ⟨other, present, compilesAgain⟩ := each.layout_exists (selects.subset declared)
  cases compiles.unique compilesAgain
  exact present

end Plan

end Carve
