import Carve.Number

namespace Carve

/-- Values under names, in the order in which the names came.  A name that comes again keeps its
place and takes the new value. -/
@[ext] structure Table (α : Type) where
  entries : List (String × α)
  distinct : (entries.map Prod.fst).Nodup
deriving Repr, DecidableEq

theorem mem_of_lookup {α : Type} {entries : List (String × α)} {key : String} {value : α}
    (found : entries.lookup key = some value) : (key, value) ∈ entries := by
  obtain ⟨before, after, rfl, _⟩ := List.lookup_eq_some_iff.mp found
  simp

theorem lookup_of_mem {α : Type} {entries : List (String × α)} {key : String} {value : α}
    (distinct : (entries.map Prod.fst).Nodup) (member : (key, value) ∈ entries) :
    entries.lookup key = some value := by
  obtain ⟨before, after, rfl⟩ := List.append_of_mem member
  refine List.lookup_eq_some_iff.mpr ⟨before, after, rfl, fun entry earlier => ?_⟩
  rw [List.map_append, List.nodup_append] at distinct
  have other := distinct.2.2 entry.1 (List.mem_map_of_mem earlier) key (by simp)
  simpa using other.symm

namespace Table

variable {α : Type}

def empty : Table α := ⟨[], .nil⟩

instance : Inhabited (Table α) := ⟨empty⟩

def names (table : Table α) : List String := table.entries.map Prod.fst

def size (table : Table α) : Nat := table.entries.length

def find? (table : Table α) (name : String) : Option α := table.entries.lookup name

def contains (table : Table α) (name : String) : Bool := table.names.contains name

/-- The entries with `name` holding `value`, at the end if it is new. -/
def put (name : String) (value : α) : List (String × α) → List (String × α)
  | [] => [(name, value)]
  | (other, old) :: rest =>
      if other = name then (name, value) :: rest else (other, old) :: put name value rest

theorem names_put (name : String) (value : α) (entries : List (String × α)) :
    (put name value entries).map Prod.fst =
      if name ∈ entries.map Prod.fst then entries.map Prod.fst
      else entries.map Prod.fst ++ [name] := by
  induction entries with
  | nil => rfl
  | cons entry rest ih =>
      obtain ⟨other, old⟩ := entry
      by_cases same : other = name
      · simp [put, same]
      · have apart : ¬ name = other := fun equal => same equal.symm
        simp only [put, if_neg same, List.map_cons, ih, List.mem_cons, apart, false_or]
        split <;> rfl

def insert (table : Table α) (name : String) (value : α) : Table α where
  entries := put name value table.entries
  distinct := by
    rw [names_put]
    split
    · exact table.distinct
    · next absent =>
        rw [List.nodup_append]
        refine ⟨table.distinct, by simp, ?_⟩
        intro other member last sameName
        simp only [List.mem_singleton] at sameName
        subst sameName
        exact fun equal => absent (equal ▸ member)

def ofList (entries : List (String × α)) : Table α :=
  entries.foldl (fun table entry => table.insert entry.1 entry.2) empty

theorem names_insert (table : Table α) (name : String) (value : α) :
    (table.insert name value).names =
      if name ∈ table.names then table.names else table.names ++ [name] :=
  names_put name value table.entries

theorem lookup_put (name : String) (value : α) (entries : List (String × α)) (other : String) :
    (put name value entries).lookup other =
      if other = name then some value else entries.lookup other := by
  induction entries with
  | nil =>
      by_cases same : other = name
      · simp [put, same]
      · simp [put, List.lookup_cons, same, beq_eq_false_iff_ne.mpr same]
  | cons entry rest ih =>
      obtain ⟨first, old⟩ := entry
      by_cases replaced : first = name
      · subst replaced
        by_cases hit : other = first
        · simp [put, hit]
        · simp [put, List.lookup_cons, hit, beq_eq_false_iff_ne.mpr hit]
      · by_cases hit : other = first
        · subst hit
          simp [put, replaced]
        · simp [put, replaced, List.lookup_cons, beq_eq_false_iff_ne.mpr hit, ih]

theorem find?_insert (table : Table α) (name : String) (value : α) (other : String) :
    (table.insert name value).find? other =
      if other = name then some value else table.find? other :=
  lookup_put name value table.entries other

theorem put_fresh {name : String} (value : α) {entries : List (String × α)}
    (fresh : name ∉ entries.map Prod.fst) :
    put name value entries = entries ++ [(name, value)] := by
  induction entries with
  | nil => rfl
  | cons entry rest ih =>
      simp only [List.map_cons, List.mem_cons, not_or] at fresh
      rw [put, if_neg fun same => fresh.1 same.symm, ih fresh.2, List.cons_append]

theorem entries_insert (table : Table α) {name : String} (value : α) (fresh : name ∉ table.names) :
    (table.insert name value).entries = table.entries ++ [(name, value)] :=
  put_fresh value fresh

theorem find?_empty (name : String) : (empty : Table α).find? name = none := rfl

end Table

namespace KeyOrder

/-- The greatest array index. -/
def maxIndex : Nat := 2 ^ 32 - 2

/-- The array index that a name spells: digits without a zero in front. -/
def index? (name : String) : Option Nat :=
  let number := name.toList.foldl (fun value char => 10 * value + (char.toNat - 48)) 0
  if Nat.repr number = name ∧ number ≤ maxIndex then some number else none

/-- Entries in the order in which an object lists them: array indexes first, ascending, then all
other names in the order in which they came. -/
def arrange {α : Type} (entries : List (String × α)) : List (String × α) :=
  let indexed := entries.filterMap fun entry => (index? entry.1).map fun index => (index, entry)
  let others := entries.filter fun entry => (index? entry.1).isNone
  (indexed.mergeSort fun left right => left.1 ≤ right.1).map Prod.snd ++ others

end KeyOrder

end Carve
