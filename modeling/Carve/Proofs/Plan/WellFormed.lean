import Carve.Plan
import Mathlib.Control.Monad.Basic

namespace Except

variable {ε ε' α β : Type}

theorem bind_eq_ok {result : Except ε α} {next : α → Except ε β} {value : β} :
    (result >>= next) = .ok value ↔ ∃ middle, result = .ok middle ∧ next middle = .ok value := by
  cases result with
  | error error => simp [bind, Except.bind]
  | ok middle => simp [bind, Except.bind]

theorem map_eq_ok {result : Except ε α} {function : α → β} {value : β} :
    result.map function = .ok value ↔ ∃ middle, result = .ok middle ∧ function middle = value := by
  cases result with
  | error error => simp [Except.map]
  | ok middle => simp [Except.map]

theorem bind_eq_error {result : Except ε α} {next : α → Except ε β} {error : ε} :
    (result >>= next) = .error error ↔
      result = .error error ∨ ∃ middle, result = .ok middle ∧ next middle = .error error := by
  cases result with
  | error reason => simp [bind, Except.bind]
  | ok middle => simp [bind, Except.bind]

theorem map_eq_error {result : Except ε α} {function : α → β} {error : ε} :
    result.map function = .error error ↔ result = .error error := by
  cases result with
  | error reason => simp [Except.map]
  | ok middle => simp [Except.map]

theorem mapError_eq_error {result : Except ε α} {function : ε → ε'} {error : ε'} :
    result.mapError function = .error error ↔
      ∃ reason, result = .error reason ∧ function reason = error := by
  cases result with
  | error reason =>
      constructor
      · rintro ⟨⟩
        exact ⟨reason, rfl, rfl⟩
      · rintro ⟨_, ⟨⟩, rfl⟩
        rfl
  | ok middle =>
      constructor
      · rintro ⟨⟩
      · rintro ⟨_, ⟨⟩, _⟩

theorem map_exists_iff {result : Except ε α} {function : α → β} :
    (∃ value, result.map function = .ok value) ↔ ∃ value, result = .ok value := by
  cases result <;> simp [Except.map]

theorem mapError_eq_ok {result : Except ε α} {function : ε → ε'} {value : α} :
    result.mapError function = .ok value ↔ result = .ok value := by
  cases result with
  | error error => exact ⟨nofun, nofun⟩
  | ok middle =>
      constructor
      · rintro ⟨⟩
        rfl
      · rintro ⟨⟩
        rfl

end Except

/-- In a list with distinct keys the key of an element leads to this element. -/
theorem List.find?_key {α : Type} {key : α → String} {elements : List α} {element : α}
    (distinct : (elements.map key).Nodup) (member : element ∈ elements) :
    elements.find? (fun other => key other = key element) = some element := by
  induction elements with
  | nil => contradiction
  | cons head rest ih =>
      obtain ⟨fresh, distinctRest⟩ := List.nodup_cons.mp distinct
      rcases List.mem_cons.mp member with rfl | later
      · simp
      · have apart : key head ≠ key element := fun same =>
          fresh (same ▸ List.mem_map_of_mem later)
        simpa [apart] using ih distinctRest later

namespace Carve

section EachAfter

variable {α : Type} {property : List α → α → Prop} {elements : List α} {element : α}

/-- Every element has the property with regard to the elements in front of it. -/
def EachAfter (property : List α → α → Prop) (elements : List α) : Prop :=
  ∀ before element after, elements = before ++ element :: after → property before element

theorem eachAfter_nil : EachAfter property [] := by
  intro before element after split
  simp at split

theorem eachAfter_cons : EachAfter property (element :: elements) ↔
    property [] element ∧ EachAfter (fun before => property (element :: before)) elements := by
  constructor
  · intro each
    exact ⟨each [] element elements rfl, fun before other after split =>
      each (element :: before) other after (by rw [split, List.cons_append])⟩
  · rintro ⟨head, each⟩ before other after split
    cases before with
    | nil =>
        cases split
        exact head
    | cons first before =>
        cases split
        exact each before other after rfl

theorem EachAfter.concat (initial : EachAfter property elements)
    (last : property elements element) : EachAfter property (elements ++ [element]) := by
  intro before other after split
  rcases List.eq_nil_or_concat after with rfl | ⟨rest, final, rfl⟩
  · obtain ⟨rfl, same⟩ := List.append_inj' split rfl
    cases same
    exact last
  · rw [List.concat_eq_append, ← List.cons_append, ← List.append_assoc] at split
    obtain ⟨split, _⟩ := List.append_inj' split rfl
    exact initial before other rest split

theorem EachAfter.mem {weaker : α → Prop} (each : EachAfter property elements)
    (weaken : ∀ before element, property before element → weaker element)
    (member : element ∈ elements) : weaker element := by
  obtain ⟨before, after, split⟩ := List.append_of_mem member
  exact weaken before element (each before element after split)

theorem EachAfter.at_index (each : EachAfter property elements) {index : Nat}
    (there : elements[index]? = some element) : property (elements.take index) element := by
  obtain ⟨inside, rfl⟩ := List.getElem?_eq_some_iff.mp there
  refine each _ _ (elements.drop (index + 1)) ?_
  rw [← List.drop_eq_getElem_cons inside, List.take_append_drop]

theorem EachAfter.distinct {name : α → String} (each : EachAfter property elements)
    (fresh : ∀ before element, property before element →
      ∀ other ∈ before, name other ≠ name element) :
    (elements.map name).Nodup := by
  rw [List.Nodup, List.pairwise_map, List.pairwise_iff_forall_sublist]
  intro first second pair
  obtain ⟨before, rest, rfl, firstIn, secondIn⟩ := List.cons_sublist_iff.mp pair
  obtain ⟨front, after, rfl⟩ := List.append_of_mem (List.singleton_sublist.mp secondIn)
  have split : before ++ (front ++ second :: after) = (before ++ front) ++ second :: after := by
    rw [List.append_assoc]
  exact fresh _ _ (each _ _ _ split) first (List.mem_append_left _ firstIn)

theorem eachAfter_fresh_and_iff {name : α → String} :
    EachAfter (fun before element => (∀ other ∈ before, name other ≠ name element) ∧
      property before element) elements ↔
      (elements.map name).Nodup ∧ EachAfter property elements := by
  constructor
  · intro each
    exact ⟨each.distinct fun _ _ valid => valid.1, fun before element after split =>
      (each before element after split).2⟩
  · rintro ⟨distinct, each⟩ before element after split
    refine ⟨fun other member same => ?_, each before element after split⟩
    rw [split, List.map_append, List.nodup_append] at distinct
    exact distinct.2.2 _ (List.mem_map_of_mem member) _ (by simp) same

end EachAfter

def Content.size? {α : Type} : Content α → Option (Size α)
  | .primitive _ => none
  | .buffer size | .text size => some size

/-- A reference without an owner, or with the structure itself as its owner. -/
def Reference.IsLocal (reference : Reference) (enclosing : String) : Prop :=
  ∀ owner ∈ reference.owner, owner = enclosing

/-- A reference to an integer that is decoded before it is needed: in one of the fields `before` of
the same structure, or in a structure with one of the layouts `earlier`. -/
inductive Reference.Grounded (enclosing : String) (earlier : List Layout)
    (before : List (Field Int)) (reference : Reference) : Prop
  | inside (field : Field Int) (isLocal : reference.IsLocal enclosing) (declared : field ∈ before)
      (named : field.name = reference.field) (integer : field.content.isReferenceable = true)
  | outside (source : Layout) (field : Field Int) (owned : reference.owner = some source.name)
      (foreign : source.name ≠ enclosing) (scanned : source ∈ earlier)
      (declared : field ∈ source.fields) (named : field.name = reference.field)
      (integer : field.content.isReferenceable = true)

/-- The numbers of a field lie in the ranges that decoding relies on. -/
structure Field.Admissible (field : Field Int) : Prop where
  align : ∀ align ∈ field.align, ∃ exponent : Nat, exponent < 32 ∧ align = 2 ^ exponent
  offset : ∀ offset ∈ field.offset, offset.natAbs ≤ Number.maxSafe
  count : ∀ count, field.content.size? = some (.literal count) → 0 ≤ count ∧ count ≤ maxSizeLimit

theorem Field.Admissible.boundary {field : Field Int} (admissible : field.Admissible) :
    ∀ align ∈ field.align, 0 < align ∧ align ≤ 2 ^ 53 := by
  intro align present
  obtain ⟨exponent, bound, rfl⟩ := admissible.align align present
  have power : 2 ^ exponent ≤ 2 ^ 53 := Nat.pow_le_pow_right (by decide) (by omega)
  exact ⟨Int.pow_pos (by decide), by exact_mod_cast power⟩

structure Field.WellFormed (enclosing : String) (earlier : List Layout) (before : List (Field Int))
    (field : Field Int) : Prop extends Field.Admissible field where
  fresh : ∀ other ∈ before, other.name ≠ field.name
  grounded : ∀ reference, field.content.size? = some (.reference reference) →
    reference.Grounded enclosing earlier before

structure Layout.WellFormed (earlier : List Layout) (layout : Layout) : Prop where
  fresh : ∀ other ∈ earlier, other.name ≠ layout.name
  signature : 1 ≤ layout.signature.size ∧ layout.signature.size ≤ 16
  fields : EachAfter (Field.WellFormed layout.name earlier) layout.fields

def Plan.WellFormed (plan : Plan) : Prop := EachAfter Layout.WellFormed plan.layouts

theorem Layout.WellFormed.admissible {earlier : List Layout} {layout : Layout}
    (wellFormed : layout.WellFormed earlier) : ∀ field ∈ layout.fields, field.Admissible :=
  fun _ member => wellFormed.fields.mem (fun _ _ valid => valid.toAdmissible) member

theorem Layout.WellFormed.distinct {earlier : List Layout} {layout : Layout}
    (wellFormed : layout.WellFormed earlier) : (layout.fields.map Field.name).Nodup :=
  wellFormed.fields.distinct fun _ _ valid => valid.fresh

theorem Plan.WellFormed.layout {plan : Plan} {layout : Layout} (wellFormed : plan.WellFormed)
    (declared : layout ∈ plan.layouts) : ∃ earlier, layout.WellFormed earlier := by
  obtain ⟨before, after, split⟩ := List.append_of_mem declared
  exact ⟨before, wellFormed before layout after split⟩

theorem Layout.names_distinct {layouts : List Layout}
    (wellFormed : EachAfter Layout.WellFormed layouts) : (layouts.map Layout.name).Nodup :=
  wellFormed.distinct fun _ _ valid => valid.fresh

end Carve
