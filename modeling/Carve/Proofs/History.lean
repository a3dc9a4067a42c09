import Carve.Proofs.Reference
import Carve.Proofs.Sources
import Mathlib.Data.List.Induction

/-!
Stores and references after a history of commits.

Two stores are used side by side, and records are committed to them in any order.  Each keeps the
last record of every structure that was committed to it, and their number (`Stores.after_keeps`).  A
reference has its value from the fields of the candidate or from the one record that it names, and
no other commit has a part in it (`Reference.resolve_follows_history`).
-/

namespace Carve

/-- One of two stores. -/
inductive Side where
  | left
  | right
deriving Repr, DecidableEq

/-- A record that is committed to one of two stores. -/
structure Commit where
  side : Side
  record : Record
deriving Repr, DecidableEq

/-- Whether a record of this structure is committed to this store. -/
def Commit.isOf (side : Side) (structureName : String) (commit : Commit) : Bool :=
  decide (commit.side = side ∧ commit.record.structureName = structureName)

/-- The last record of a structure that is committed to a store. -/
def Commit.last? (history : List Commit) (side : Side) (structureName : String) : Option Record :=
  (history.filter (isOf side structureName)).getLast?.map Commit.record

theorem Commit.last?_concat (history : List Commit) (last : Commit) (side : Side)
    (structureName : String) :
    last? (history ++ [last]) side structureName =
      if last.isOf side structureName then some last.record
      else last? history side structureName := by
  rw [last?, List.filter_append]
  cases counts : last.isOf side structureName <;> simp [counts, last?]

structure Stores where
  left : Store
  right : Store
deriving Repr, DecidableEq

namespace Stores

def empty : Stores := ⟨.empty, .empty⟩

def on (stores : Stores) : Side → Store
  | .left => stores.left
  | .right => stores.right

def commit (stores : Stores) (commit : Commit) : Stores :=
  match commit.side with
  | .left => { stores with left := stores.left.commit commit.record }
  | .right => { stores with right := stores.right.commit commit.record }

/-- The stores after commits one behind the other. -/
def after (history : List Commit) : Stores := history.foldl commit empty

theorem after_concat (history : List Commit) (last : Commit) :
    after (history ++ [last]) = (after history).commit last :=
  List.foldl_append

theorem on_commit (stores : Stores) (commit : Commit) (side : Side) :
    (stores.commit commit).on side =
      if commit.side = side then (stores.on side).commit commit.record else stores.on side := by
  obtain ⟨target, record⟩ := commit
  cases target <;> cases side <;> rfl

/-- What the stores have kept of a history. -/
structure Keeps (stores : Stores) (history : List Commit) : Prop where
  version (side : Side) (structureName : String) :
    (stores.on side).versionOf structureName = history.countP (Commit.isOf side structureName)
  latest (side : Side) (structureName : String) :
    (stores.on side).latestOf structureName = Commit.last? history side structureName

theorem Keeps.commit {stores : Stores} {history : List Commit} (keeps : stores.Keeps history)
    (last : Commit) : (stores.commit last).Keeps (history ++ [last]) where
  version side structureName := by
    rw [on_commit, List.countP_append, List.countP_singleton, ← keeps.version]
    by_cases here : last.side = side
    · rw [if_pos here, Store.versionOf_commit]
      by_cases named : structureName = last.record.structureName
      · simp [Commit.isOf, here, named]
      · simp [Commit.isOf, named, Ne.symm named]
    · simp [Commit.isOf, here]
  latest side structureName := by
    rw [on_commit, Commit.last?_concat, ← keeps.latest]
    by_cases here : last.side = side
    · rw [if_pos here, Store.latestOf_commit]
      by_cases named : structureName = last.record.structureName
      · simp [Commit.isOf, here, named]
      · simp [Commit.isOf, named, Ne.symm named]
    · simp [Commit.isOf, here]

theorem after_keeps (history : List Commit) : (after history).Keeps history := by
  induction history using List.reverseRecOn with
  | nil =>
      refine ⟨fun side structureName => ?_, fun side structureName => ?_⟩
      · cases side <;> rfl
      · cases side <;> rfl
  | append_singleton history last ih =>
      rw [after_concat]
      exact ih.commit last

end Stores

/-- An integer that is narrow enough to be a size, with its number. -/
inductive Value.Supplies : Value → Int → Prop
  | unsigned {bits : Nat} {number : Int} (narrow : bits ≤ 64) : Supplies (.uint bits number) number
  | signed {bits : Nat} {number : Int} (narrow : bits ≤ 64) : Supplies (.int bits number) number

theorem Value.size?_eq_some {value : Value} {number : Int} :
    value.size? = some number ↔ value.Supplies number := by
  constructor
  · intro sized
    cases value with
    | uint bits supplied | int bits supplied =>
        simp only [size?, Option.ite_none_right_eq_some] at sized
        obtain ⟨narrow, same⟩ := sized
        cases same
        constructor
        exact narrow
    | _ => contradiction
  · rintro (narrow | narrow)
    · exact if_pos narrow
    · exact if_pos narrow

namespace Reference

variable {history : List Commit} {side : Side} {reference : Reference} {candidate : Table Reading}
  {enclosing : String}

/-- The fields that a reference stands for after a history: those of the candidate unless it names
another structure, and otherwise those of its last record. -/
inductive LooksInto (history : List Commit) (side : Side) (reference : Reference)
    (candidate : Table Reading) (enclosing : String) : Table Reading → Prop
  | candidate (isLocal : reference.IsLocal enclosing) :
      LooksInto history side reference candidate enclosing candidate
  | latest {owner : String} {record : Record} (owned : reference.owner = some owner)
      (foreign : owner ≠ enclosing) (last : Commit.last? history side owner = some record) :
      LooksInto history side reference candidate enclosing record.fields

/-- The value of a reference after a history. -/
inductive Gives (history : List Commit) (side : Side) (reference : Reference)
    (candidate : Table Reading) (enclosing : String) : Int → Prop
  | intro {fields : Table Reading} {reading : Reading} {number : Int}
      (source : reference.LooksInto history side candidate enclosing fields)
      (read : fields.find? reference.field = some reading)
      (supplies : reading.value.Supplies number) :
      Gives history side reference candidate enclosing number

/-- Why a reference has no value after a history. -/
inductive Lacks (history : List Commit) (side : Side) (reference : Reference)
    (candidate : Table Reading) (enclosing : String) : Unresolved → Prop
  | noRecord {owner : String} (owned : reference.owner = some owner) (foreign : owner ≠ enclosing)
      (missing : Commit.last? history side owner = none) :
      Lacks history side reference candidate enclosing (.noRecord owner)
  | notDecoded {fields : Table Reading}
      (source : reference.LooksInto history side candidate enclosing fields)
      (absent : reference.field ∉ fields.names) :
      Lacks history side reference candidate enclosing .notDecoded
  | notSize {fields : Table Reading} {reading : Reading}
      (source : reference.LooksInto history side candidate enclosing fields)
      (read : fields.find? reference.field = some reading)
      (unsuited : ∀ number, ¬ reading.value.Supplies number) :
      Lacks history side reference candidate enclosing (.notSize reading.value.kind)

theorem source_eq_ok {fields : Table Reading} :
    reference.source ((Stores.after history).on side) candidate enclosing = .ok fields ↔
      reference.LooksInto history side candidate enclosing fields := by
  have latest := (Stores.after_keeps history).latest side
  constructor
  · intro found
    cases owned : reference.owner with
    | none =>
        have isLocal : reference.IsLocal enclosing := by simp [IsLocal, owned]
        rw [source_local _ isLocal] at found
        cases found
        exact .candidate isLocal
    | some owner =>
        by_cases same : owner = enclosing
        · have isLocal : reference.IsLocal enclosing := by simp [IsLocal, owned, same]
          rw [source_local _ isLocal] at found
          cases found
          exact .candidate isLocal
        · obtain ⟨record, stored, rfl⟩ := latestOf_of_source owned same found
          exact .latest owned same ((latest owner).symm.trans stored)
  · intro looks
    cases looks with
    | candidate isLocal => exact source_local _ isLocal
    | latest owned foreign last =>
        exact source_foreign candidate owned foreign ((latest _).trans last)

theorem resolve_eq_ok_iff_gives {number : Int} :
    reference.resolve ((Stores.after history).on side) candidate enclosing = .ok number ↔
      reference.Gives history side candidate enclosing number := by
  rw [resolve_eq_ok]
  constructor
  · rintro ⟨fields, reading, found, read, sized⟩
    exact .intro (source_eq_ok.mp found) read (Value.size?_eq_some.mp sized)
  · rintro ⟨source, read, supplies⟩
    exact ⟨_, _, source_eq_ok.mpr source, read, Value.size?_eq_some.mpr supplies⟩

theorem source_eq_error {reason : Unresolved}
    (failed : reference.source ((Stores.after history).on side) candidate enclosing =
      .error reason) :
    reference.Lacks history side candidate enclosing reason := by
  unfold source at failed
  split at failed
  · contradiction
  · next owner owned =>
      split at failed
      · contradiction
      · next foreign =>
          split at failed
          · contradiction
          · next missing =>
              cases failed
              exact .noRecord owned foreign
                (((Stores.after_keeps history).latest side owner).symm.trans missing)

theorem lacks_of_resolve {reason : Unresolved}
    (failed : reference.resolve ((Stores.after history).on side) candidate enclosing =
      .error reason) :
    reference.Lacks history side candidate enclosing reason := by
  unfold resolve at failed
  split at failed
  · next other unsourced =>
      cases failed
      exact source_eq_error unsourced
  · next fields found =>
      have source := source_eq_ok.mp found
      split at failed
      · next absent =>
          cases failed
          refine .notDecoded source fun member => ?_
          obtain ⟨entry, present, same⟩ := List.mem_map.mp member
          have other := List.lookup_eq_none_iff.mp absent entry present
          exact absurd same.symm (by simpa using other)
      · next reading read =>
          split at failed
          · contradiction
          · next unsized =>
              cases failed
              refine .notSize source read fun number supplies => ?_
              rw [Value.size?_eq_some.mpr supplies] at unsized
              contradiction

/-- A commit to the other store, of another structure than the reference names, or of the enclosing
one has no part in what the reference is resolved to. -/
theorem resolve_without {front back : List Commit} {commit : Commit}
    (apart : commit.side = side → reference.owner = some commit.record.structureName →
      commit.record.structureName = enclosing) :
    reference.resolve ((Stores.after (front ++ back)).on side) candidate enclosing =
      reference.resolve ((Stores.after (front ++ commit :: back)).on side) candidate enclosing := by
  apply resolve_congr
  intro owner owned foreign
  rw [(Stores.after_keeps _).latest, (Stores.after_keeps _).latest]
  have other : commit.isOf side owner = false := by
    refine decide_eq_false fun counts => foreign ?_
    obtain ⟨here, rfl⟩ := counts
    exact apart here owned
  rw [Commit.last?, Commit.last?, List.filter_append, List.filter_append, List.filter_cons,
    if_neg (by simp [other])]

/-- After any history of commits to two stores, each holds the number and the last of the records of
every structure that were committed to it.  A reference has the value of the integer that it names,
in the candidate or in that last record, and otherwise an error that says what is missing; and all
other commits can be left out. -/
theorem resolve_follows_history (history : List Commit) (side : Side) :
    let store := (Stores.after history).on side
    (∀ structureName,
      store.versionOf structureName = history.countP (Commit.isOf side structureName) ∧
        store.latestOf structureName = Commit.last? history side structureName) ∧
    ∀ (reference : Reference) (candidate : Table Reading) (enclosing : String),
      (∀ number, reference.resolve store candidate enclosing = .ok number ↔
        reference.Gives history side candidate enclosing number) ∧
      ((∀ number, ¬ reference.Gives history side candidate enclosing number) →
        ∃ reason, reference.Lacks history side candidate enclosing reason ∧
          reference.resolve store candidate enclosing = .error reason ∧
          ∀ (field : Field Int) (byteOrder : ByteOrder) (maxSize position : Int),
            field.size ⟨enclosing, byteOrder, maxSize, store⟩ candidate position
              (.reference reference) =
              .error ⟨field.name, position, .unresolved reference reason⟩) ∧
      ∀ (front : List Commit) (commit : Commit) (back : List Commit),
        history = front ++ commit :: back →
        (commit.side = side → reference.owner = some commit.record.structureName →
          commit.record.structureName = enclosing) →
        reference.resolve ((Stores.after (front ++ back)).on side) candidate enclosing =
          reference.resolve store candidate enclosing := by
  intro store
  have keeps := Stores.after_keeps history
  refine ⟨fun structureName => ⟨keeps.version .., keeps.latest ..⟩,
    fun reference candidate enclosing => ⟨fun number => resolve_eq_ok_iff_gives, ?_, ?_⟩⟩
  · intro without
    cases resolved : reference.resolve store candidate enclosing with
    | ok number => exact absurd (resolve_eq_ok_iff_gives.mp resolved) (without number)
    | error reason =>
        refine ⟨reason, lacks_of_resolve resolved, rfl, fun field byteOrder maxSize position => ?_⟩
        simp only [Field.size, resolved]
  · rintro front commit back rfl apart
    exact resolve_without apart

example :
    let block (size : Int) : Record := ⟨"block", 0, 1, 2, .ofList [("size", ⟨.uint 8 size, 1, 1⟩)]⟩
    let store := (Stores.after [⟨.left, block 3⟩, ⟨.right, block 4⟩, ⟨.left, block 5⟩]).on .left
    let reference : Reference := ⟨"size", some "block"⟩
    store.versionOf "block" = 2 ∧ reference.resolve store .empty "note" = .ok 5 ∧
      reference.resolve store .empty "block" = .error .notDecoded := by
  decide

end Reference

end Carve
