import Carve.Table
import Carve.Value

namespace Carve

/-- An integer that was decoded before, without an owner in the structure being decoded, with one in
the latest record of that structure. -/
structure Reference where
  field : String
  owner : Option String
deriving Repr, DecidableEq

/-- The field and its owner, or the field alone where the owner has no name. -/
def Reference.text (reference : Reference) : String :=
  match reference.owner with
  | none | some "" => reference.field
  | some owner => s!"{reference.field}::{owner}"

/-- A field's value with the bytes it was read from; padding in front does not count. -/
structure Reading where
  value : Value
  offset : Int
  size : Int
deriving Repr, DecidableEq

/-- The cursor behind a field. -/
def Reading.stop (reading : Reading) : Int := Number.add reading.offset reading.size

/-- What the fields of one structure were read as, in the order of their declaration. -/
structure Record where
  structureName : String
  /-- Where the signature begins. -/
  signatureOffset : Int
  /-- Where the signature ends and the fields begin. -/
  start : Int
  /-- The cursor behind the last field. -/
  stop : Int
  fields : Table Reading
deriving Repr, DecidableEq

namespace Record

def value? (record : Record) (name : String) : Option Value :=
  (record.fields.find? name).map Reading.value

/-- The record as an object of plain values, in the order of its keys. -/
def toObject (record : Record) : List (String × Value.Plain) :=
  KeyOrder.arrange (record.fields.entries.map fun entry => (entry.1, entry.2.value.plain))

end Record

/-- The latest record of every structure, and how many records the structure has had. -/
structure Store where
  latest : Table (Record × Nat)
deriving Repr, DecidableEq

namespace Store

def empty : Store := ⟨.empty⟩

instance : Inhabited Store := ⟨empty⟩

def latestOf (store : Store) (structureName : String) : Option Record :=
  (store.latest.find? structureName).map Prod.fst

/-- How many records the structure has had, counted on where a plain number would stay at 2^53. -/
def versionOf (store : Store) (structureName : String) : Nat :=
  ((store.latest.find? structureName).map Prod.snd).getD 0

/-- Makes a record the latest one of its structure. -/
def commit (store : Store) (record : Record) : Store :=
  ⟨store.latest.insert record.structureName (record, store.versionOf record.structureName + 1)⟩

def ofRecords (records : List Record) : Store := records.foldl commit empty

theorem latestOf_commit (store : Store) (record : Record) (structureName : String) :
    (store.commit record).latestOf structureName =
      if structureName = record.structureName then some record
      else store.latestOf structureName := by
  unfold latestOf commit
  rw [Table.find?_insert]
  split <;> rfl

theorem versionOf_commit (store : Store) (record : Record) (structureName : String) :
    (store.commit record).versionOf structureName =
      if structureName = record.structureName then store.versionOf structureName + 1
      else store.versionOf structureName := by
  by_cases same : structureName = record.structureName
  · subst same
    simp [versionOf, commit, Table.find?_insert]
  · simp [versionOf, commit, Table.find?_insert, same]

end Store

namespace Reference

/-- Why a reference has no value. -/
inductive Unresolved where
  | noRecord (structureName : String)
  | notDecoded
  | notSize (kind : String)
deriving Repr, DecidableEq

def Unresolved.message : Unresolved → String
  | .noRecord structureName => s!"no {structureName} record decoded"
  | .notDecoded => "field not decoded"
  | .notSize kind => s!"{kind} is not a size"

/-- The fields that a reference looks into; a structure that names itself means its own candidate.
-/
def source (reference : Reference) (store : Store) (candidate : Table Reading)
    (enclosing : String) : Except Unresolved (Table Reading) :=
  match reference.owner with
  | none => .ok candidate
  | some owner =>
      if owner = enclosing then .ok candidate
      else
        match store.latestOf owner with
        | some record => .ok record.fields
        | none => .error (.noRecord owner)

def resolve (reference : Reference) (store : Store) (candidate : Table Reading)
    (enclosing : String) : Except Unresolved Int :=
  match reference.source store candidate enclosing with
  | .error reason => .error reason
  | .ok fields =>
      match fields.find? reference.field with
      | none => .error .notDecoded
      | some reading =>
          match reading.value.size? with
          | some number => .ok number
          | none => .error (.notSize reading.value.kind)

end Reference

end Carve
