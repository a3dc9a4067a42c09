import Carve.Proofs.Plan.WellFormed

namespace Carve

/-- A field of the structure `enclosing` takes its size from a record of the structure `owner`. -/
def Field.RefersTo (field : Field Int) (enclosing owner : String) : Prop :=
  ∃ reference : Reference, field.content.size? = some (.reference reference) ∧
    reference.owner = some owner ∧ owner ≠ enclosing

/-- Two stores have the same records of the structures that a layout refers to. -/
def Layout.SameSources (layout : Layout) (store other : Store) : Prop :=
  ∀ field ∈ layout.fields, ∀ owner, field.RefersTo layout.name owner →
    store.latestOf owner = other.latestOf owner

theorem Reference.resolve_congr {reference : Reference} {enclosing : String} {store other : Store}
    (readings : Table Reading)
    (same : ∀ owner, reference.owner = some owner → owner ≠ enclosing →
      store.latestOf owner = other.latestOf owner) :
    reference.resolve store readings enclosing = reference.resolve other readings enclosing := by
  have source : reference.source store readings enclosing =
      reference.source other readings enclosing := by
    unfold source
    cases owned : reference.owner with
    | none => rfl
    | some owner =>
        by_cases isLocal : owner = enclosing
        · simp only [if_pos isLocal]
        · simp only [if_neg isLocal, same owner owned isLocal]
  rw [resolve, resolve, source]

section Field

variable {field : Field Int} {context : DecodeContext} {other : Store}
  (same : ∀ owner, field.RefersTo context.structureName owner →
    context.store.latestOf owner = other.latestOf owner)
include same

theorem Field.size_congr {size : Size Int} (declared : field.content.size? = some size)
    (readings : Table Reading) (position : Int) :
    field.size context readings position size =
      field.size { context with store := other } readings position size := by
  cases size with
  | literal count => rfl
  | reference reference =>
      have resolved := reference.resolve_congr readings fun owner owned elsewhere =>
        same owner ⟨reference, declared, owned, elsewhere⟩
      simp only [Field.size, resolved]
      rfl

theorem Field.decode_congr (readings : Table Reading) (stream : Bytes) (cursor : Int) :
    field.decode context readings stream cursor =
      field.decode { context with store := other } readings stream cursor := by
  have sized (isText : Bool) (size : Size Int) (declared : field.content.size? = some size)
      (position : Int) : field.decodeSized isText size context readings stream position =
        field.decodeSized isText size { context with store := other } readings stream position := by
    rw [decodeSized, decodeSized, take, take, size_congr same declared]
  unfold decode
  cases content : field.content with
  | primitive type => rfl
  | buffer size => simp only [sized false size (by rw [content]; rfl)]
  | text size => simp only [sized true size (by rw [content]; rfl)]

end Field

namespace Layout

variable {layout : Layout} {store other : Store}

theorem SameSources.refl (layout : Layout) (store : Store) : layout.SameSources store store :=
  fun _ _ _ _ => rfl

theorem SameSources.symm (same : layout.SameSources store other) : layout.SameSources other store :=
  fun field member owner refers => (same field member owner refers).symm

theorem decodeFields_congr {context : DecodeContext} {fields : List (Field Int)}
    (same : ∀ field ∈ fields, ∀ owner, field.RefersTo context.structureName owner →
      context.store.latestOf owner = other.latestOf owner)
    (stream : Bytes) (readings : Table Reading) (cursor : Int) :
    decodeFields context stream fields readings cursor =
      decodeFields { context with store := other } stream fields readings cursor := by
  induction fields generalizing readings cursor with
  | nil => rfl
  | cons field rest ih =>
      have others := ih fun next member => same next (List.mem_cons_of_mem _ member)
      simp only [decodeFields, Field.decode_congr (same field List.mem_cons_self), others]

/-- A candidate is decoded alike with all stores that agree on what its structure refers to. -/
theorem SameSources.candidate (same : layout.SameSources store other) (stream : Bytes)
    (maxSize place : Int) :
    layout.candidate stream maxSize store place = layout.candidate stream maxSize other place := by
  have fields := @decodeFields_congr other (layout.context maxSize store) layout.fields same stream
  simp only [Layout.candidate, fields]
  rfl

theorem WellFormed.source_inFront {earlier : List Layout} (wellFormed : layout.WellFormed earlier)
    {field : Field Int} (member : field ∈ layout.fields) {owner : String}
    (refers : field.RefersTo layout.name owner) : ∃ source ∈ earlier, source.name = owner := by
  obtain ⟨reference, declared, owned, elsewhere⟩ := refers
  obtain ⟨before, after, split⟩ := List.append_of_mem member
  cases (wellFormed.fields before field after split).grounded reference declared with
  | inside _ isLocal _ _ _ => exact absurd (isLocal owner owned) elsewhere
  | outside source _ ownedBySource _ inFront _ _ _ =>
      cases owned.symm.trans ownedBySource
      exact ⟨source, inFront, rfl⟩

/-- Records of the structure itself do not count. -/
theorem SameSources.commit (same : layout.SameSources store other) {record : Record}
    (own : record.structureName = layout.name) :
    layout.SameSources (store.commit record) other := by
  intro field member owner refers
  have agree := same field member owner refers
  obtain ⟨_, _, _, elsewhere⟩ := refers
  rw [Store.latestOf_commit, own, if_neg elsewhere, agree]

end Layout

namespace Store

/-- The store after records have been committed one behind the other. -/
def commitAll (store : Store) (records : List Record) : Store := records.foldl commit store

@[simp] theorem commitAll_nil (store : Store) : store.commitAll [] = store := rfl

@[simp] theorem commitAll_cons (store : Store) (record : Record) (records : List Record) :
    store.commitAll (record :: records) = (store.commit record).commitAll records := rfl

theorem commitAll_append (store : Store) (front back : List Record) :
    store.commitAll (front ++ back) = (store.commitAll front).commitAll back :=
  List.foldl_append

theorem find?_commit_elsewhere (store : Store) {record : Record} {name : String}
    (elsewhere : name ≠ record.structureName) :
    (store.commit record).latest.find? name = store.latest.find? name := by
  rw [commit, Table.find?_insert, if_neg elsewhere]

variable {records : List Record} {name : String}

theorem find?_commitAll_elsewhere (store : Store)
    (elsewhere : ∀ record ∈ records, name ≠ record.structureName) :
    (store.commitAll records).latest.find? name = store.latest.find? name := by
  induction records generalizing store with
  | nil => rfl
  | cons record rest ih =>
      rw [commitAll_cons, ih _ fun other member => elsewhere other (List.mem_cons_of_mem _ member)]
      exact store.find?_commit_elsewhere (elsewhere record List.mem_cons_self)

theorem latestOf_commitAll (store : Store) (records : List Record) (name : String) :
    (store.commitAll records).latestOf name =
      (records.filter fun record => record.structureName = name).getLast?.or
        (store.latestOf name) := by
  induction records generalizing store with
  | nil => rfl
  | cons record rest ih =>
      rw [commitAll_cons, ih, latestOf_commit, List.filter_cons]
      by_cases named : record.structureName = name
      · -- The record is the last one of its name unless the rest has another.
        rw [if_pos named.symm, if_pos (decide_eq_true named), List.getLast?_cons]
        cases (rest.filter fun record => record.structureName = name).getLast? <;> rfl
      · rw [if_neg fun same => named same.symm, if_neg (by simpa using named)]

theorem versionOf_commitAll (store : Store) (records : List Record) (name : String) :
    (store.commitAll records).versionOf name =
      store.versionOf name + records.countP fun record => record.structureName = name := by
  induction records generalizing store with
  | nil => rfl
  | cons record rest ih =>
      rw [commitAll_cons, ih, versionOf_commit, List.countP_cons]
      by_cases named : record.structureName = name
      · rw [if_pos named.symm, if_pos (decide_eq_true named)]
        omega
      · rw [if_neg fun same => named same.symm, if_neg (by simpa using named), Nat.add_zero]

/-- A store has come from another by records of one structure alone. -/
structure Takes (store : Store) (name : String) (records : List Record) (reached : Store) :
    Prop where
  latest : reached.latestOf name = records.getLast?.or (store.latestOf name)
  version : reached.versionOf name = store.versionOf name + records.length
  elsewhere : ∀ other, other ≠ name → reached.latest.find? other = store.latest.find? other

theorem takes_commitAll (store : Store)
    (named : ∀ record ∈ records, record.structureName = name) :
    store.Takes name records (store.commitAll records) where
  latest := by
    rw [latestOf_commitAll, List.filter_eq_self.mpr (by simpa using named)]
  version := by
    rw [versionOf_commitAll, List.countP_eq_length.mpr (by simpa using named)]
  elsewhere other apart :=
    store.find?_commitAll_elsewhere fun record member same =>
      apart (same.trans (named record member))

end Store

end Carve
