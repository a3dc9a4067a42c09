import Carve.Proofs.Document.Grammar

/-!
What is wrong with an element of a document stands on its own (`Document.ofTree_local`).

The issues of a constant, of a structure or of a field are those of its own check, together at one
place among the issues of the document.  Another element in its place changes these and no others.
A check that has this property at a path inside a part has it at the path through the part as well,
for arrays (`Tree.IsLocal.index`) as for objects (`Tree.IsLocal.key`).
-/

namespace Carve

/-- The issue as seen from the root of a path. -/
def Issue.within (path : List PathStep) (issue : Issue) : Issue :=
  { issue with path := path ++ issue.path }

namespace Checked

variable {α β : Type}

theorem issues_functor (change : α → β) (checked : Checked α) :
    (change <$> checked).issues = checked.issues :=
  issues_map change checked

theorem issues_applicative (change : Checked (α → β)) (checked : Checked α) :
    (change <*> checked).issues = change.issues ++ checked.issues :=
  issues_seq change checked

theorem issues_refuse (complaint : Complaint) :
    (refuse complaint : Checked α).issues = [{ path := [], complaint }] :=
  rfl

end Checked

namespace Tree

/-- The part of a tree at a path. -/
def at? : Tree → List PathStep → Option Tree
  | tree, [] => some tree
  | .object members, .key name :: path =>
      match members.lookup name with
      | some member => member.at? path
      | none => none
  | .array items, .index place :: path =>
      match items[place]? with
      | some item => item.at? path
      | none => none
  | _, _ :: _ => none

/-- The tree with another part at a path, or the same tree if it has none there. -/
def replace : Tree → List PathStep → Tree → Tree
  | _, [], part => part
  | .object members, .key name :: path, part =>
      match members.lookup name with
      | some member => .object (Table.put name (member.replace path part) members)
      | none => .object members
  | .array items, .index place :: path, part =>
      match items[place]? with
      | some item => .array (items.set place (item.replace path part))
      | none => .array items
  | tree, _ :: _, _ => tree

section Path

variable {name : String} {place : Nat} {path : List PathStep} {tree part : Tree}

theorem at?_key (there : tree.at? (.key name :: path) = some part) : ∃ members member,
    tree = .object members ∧ members.lookup name = some member ∧
      member.at? path = some part := by
  cases tree with
  | object members =>
      simp only [at?] at there
      split at there
      · next member found => exact ⟨members, member, rfl, found, there⟩
      · contradiction
  | null | boolean _ | number _ | string _ | array _ => contradiction

theorem at?_index (there : tree.at? (.index place :: path) = some part) : ∃ items item,
    tree = .array items ∧ items[place]? = some item ∧ item.at? path = some part := by
  cases tree with
  | array items =>
      simp only [at?] at there
      split at there
      · next item found => exact ⟨items, item, rfl, found, there⟩
      · contradiction
  | null | boolean _ | number _ | string _ | object _ => contradiction

theorem put_self {members : List (String × Tree)} {member : Tree}
    (found : members.lookup name = some member) : Table.put name member members = members := by
  induction members with
  | nil => contradiction
  | cons entry rest ih =>
      obtain ⟨other, value⟩ := entry
      by_cases same : other = name
      · subst same
        simp only [List.lookup_cons_self, Option.some.injEq] at found
        rw [Table.put, if_pos rfl, found]
      · have later : rest.lookup name = some member := by
          rwa [List.lookup_cons, beq_false_of_ne (Ne.symm same)] at found
        rw [Table.put, if_neg same, ih later]

/-- A part in its own place changes nothing. -/
theorem replace_self (there : tree.at? path = some part) : tree.replace path part = tree := by
  induction path generalizing tree with
  | nil =>
      cases there
      rfl
  | cons step path ih =>
      cases step with
      | key name =>
          obtain ⟨members, member, rfl, found, inside⟩ := at?_key there
          simp only [replace, found, ih inside, put_self found]
      | index place =>
          obtain ⟨items, item, rfl, found, inside⟩ := at?_index there
          obtain ⟨_, rfl⟩ := List.getElem?_eq_some_iff.mp found
          simp only [replace, found, ih inside, List.set_getElem_self]

end Path

section Object

variable {α : Type}

/-- A member that an object may have, with what is wrong with it or with its absence. -/
structure Known where
  key : String
  issues : Option Tree → List Issue

def Known.required (key : String) (check : Tree → Checked α) : Known where
  key
  issues
    | some tree => (check tree).issues
    | none => [{ path := [], complaint := .missing }]

def Known.optional (key : String) (check : Tree → Checked α) : Known where
  key
  issues
    | some tree => (check tree).issues
    | none => []

/-- The issues of the known members of an object, in the order of the list. -/
def membersIssues (known : List Known) (members : List (String × Tree)) : List Issue :=
  known.flatMap fun entry =>
    (entry.issues (members.lookup entry.key)).map (Issue.under (.key entry.key))

theorem issues_required (key : String) (check : Tree → Checked α)
    (members : List (String × Tree)) :
    (checkRequired members key check).issues =
      membersIssues [.required key check] members := by
  unfold checkRequired
  cases found : members.lookup key with
  | none =>
      simp [membersIssues, Known.required, found, Checked.issues_under, Checked.issues_refuse]
  | some tree => simp [membersIssues, Known.required, found, Checked.issues_under]

theorem issues_optional (key : String) (check : Tree → Checked α)
    (members : List (String × Tree)) :
    (checkOptional members key check).issues =
      membersIssues [.optional key check] members := by
  unfold checkOptional
  cases found : members.lookup key with
  | none => simp [membersIssues, Known.optional, found, Checked.issues]
  | some tree =>
      simp [membersIssues, Known.optional, found, Checked.issues_functor, Checked.issues_under]

theorem membersIssues_append (known more : List Known) (members : List (String × Tree)) :
    membersIssues (known ++ more) members =
      membersIssues known members ++ membersIssues more members :=
  List.flatMap_append

theorem membersIssues_cons (entry : Known) (known : List Known)
    (members : List (String × Tree)) :
    membersIssues (entry :: known) members =
      (entry.issues (members.lookup entry.key)).map (Issue.under (.key entry.key)) ++
        membersIssues known members :=
  List.flatMap_cons

/-- The issues of members begin with the keys of these members. -/
theorem path_membersIssues {known : List Known} {members : List (String × Tree)} {issue : Issue}
    {key : String} (absent : key ∉ known.map Known.key)
    (present : issue ∈ membersIssues known members) : ¬ [.key key] <+: issue.path := by
  obtain ⟨entry, listed, inside⟩ := List.mem_flatMap.mp present
  obtain ⟨inner, _, rfl⟩ := List.mem_map.mp inside
  intro begins
  obtain ⟨same, _⟩ := List.cons_prefix_cons.mp begins
  cases same
  exact absent (List.mem_map_of_mem listed)

/-- Only the issues of its own entry depend on a member. -/
theorem membersIssues_put {known : List Known} {key : String} (member : Tree)
    (members : List (String × Tree)) (absent : key ∉ known.map Known.key) :
    membersIssues known (Table.put key member members) = membersIssues known members := by
  refine List.flatMap_congr fun entry listed => ?_
  have other : entry.key ≠ key := fun same => absent (same ▸ List.mem_map_of_mem listed)
  rw [Table.lookup_put, if_neg other]

end Object

/-- Where a tree has a part at the path, what is wrong with the part stands together at one place
among what is wrong with the tree.  The issues around lie elsewhere, and stay when the part is
replaced. -/
def IsLocal {α β : Type} (whole : Tree → Checked α) (path : List PathStep)
    (part : Tree → Checked β) : Prop :=
  ∀ tree element : Tree, tree.at? path = some element → ∃ front back,
    (∀ other, (whole (tree.replace path other)).issues =
      front ++ (part other).issues.map (Issue.within path) ++ back) ∧
    ∀ issue ∈ front ++ back, ¬ path <+: issue.path

namespace IsLocal

variable {α β γ : Type} {part : Tree → Checked β} {path : List PathStep}

theorem self : IsLocal part [] part := by
  intro tree element _
  have same : Issue.within [] = id := rfl
  exact ⟨[], [], fun other => by simp [replace, same], by simp⟩

/-- What is local inside a part is local in the whole if the issues around the part do not begin
with the step to it. -/
theorem around {whole : Tree → Checked γ} {inner : Tree → Checked α} {step : PathStep}
    {tree member element : Tree} (isLocal : IsLocal inner path part)
    (there : member.at? path = some element) (first last : List Issue)
    (apart : ∀ issue ∈ first ++ last, ¬ [step] <+: issue.path)
    (placed : ∀ other, (whole (tree.replace (step :: path) other)).issues =
      first ++ ((inner (member.replace path other)).issues.map (Issue.under step) ++ last)) :
    ∃ front back,
      (∀ other, (whole (tree.replace (step :: path) other)).issues =
        front ++ (part other).issues.map (Issue.within (step :: path)) ++ back) ∧
      ∀ issue ∈ front ++ back, ¬ (step :: path) <+: issue.path := by
  obtain ⟨front, back, exchanged, elsewhere⟩ := isLocal member element there
  refine ⟨first ++ front.map (.under step), back.map (.under step) ++ last, fun other => ?_,
    fun issue present through => ?_⟩
  · rw [placed, exchanged]
    simp only [List.map_append, List.map_map, List.append_assoc]
    rfl
  · have begins : [step] <+: issue.path := (List.prefix_append [step] path).trans through
    simp only [List.mem_append, List.mem_map] at present
    rcases present with (before | ⟨inside, present, rfl⟩) | ⟨inside, present, rfl⟩ | behind
    · exact apart issue (List.mem_append_left _ before) begins
    · exact elsewhere inside (List.mem_append_left _ present) (List.cons_prefix_cons.mp through).2
    · exact elsewhere inside (List.mem_append_right _ present) (List.cons_prefix_cons.mp through).2
    · exact apart issue (List.mem_append_right _ behind) begins

section Array

variable {check : Tree → Checked α}

theorem issues_checkItems (index : Nat) (front back : List Tree) :
    (checkItems check index (front ++ back)).issues =
      (checkItems check index front).issues ++
        (checkItems check (index + front.length) back).issues := by
  induction front generalizing index with
  | nil => rfl
  | cons item rest ih =>
      simp only [List.cons_append, checkItems, Checked.issues_applicative,
        Checked.issues_functor, ih, List.length_cons, List.append_assoc, Nat.add_assoc,
        Nat.add_comm 1]

/-- The issues of items have the places of these items in front. -/
theorem path_checkItems {index : Nat} {items : List Tree} {issue : Issue}
    (member : issue ∈ (checkItems check index items).issues) :
    ∃ place rest, issue.path = .index place :: rest ∧ index ≤ place ∧
      place < index + items.length := by
  induction items generalizing index with
  | nil => contradiction
  | cons item rest ih =>
      simp only [checkItems, Checked.issues_applicative, Checked.issues_functor,
        Checked.issues_under, List.mem_append, List.mem_map] at member
      rcases member with ⟨own, _, rfl⟩ | later
      · exact ⟨index, own.path, rfl, by simp⟩
      · obtain ⟨place, further, same, lower, upper⟩ := ih later
        rw [List.length_cons]
        exact ⟨place, further, same, by omega, by omega⟩

theorem issues_checkItems_set {items : List Tree} {place : Nat} (inside : place < items.length)
    (item : Tree) :
    (checkItems check 0 (items.set place item)).issues =
      (checkItems check 0 (items.take place)).issues ++
        ((check item).issues.map (Issue.under (.index place)) ++
          (checkItems check (place + 1) (items.drop (place + 1))).issues) := by
  have length : (items.take place).length = place := List.length_take_of_le (Nat.le_of_lt inside)
  rw [List.set_eq_take_append_cons_drop, if_pos inside, issues_checkItems, length, Nat.zero_add,
    checkItems, Checked.issues_applicative, Checked.issues_functor, Checked.issues_under]

theorem index (inner : IsLocal check path part) (place : Nat) :
    IsLocal (checkArray check) (.index place :: path) part := by
  intro tree element there
  obtain ⟨items, item, rfl, found, inside⟩ := at?_index there
  obtain ⟨bound, _⟩ := List.getElem?_eq_some_iff.mp found
  refine inner.around inside (checkItems check 0 (items.take place)).issues
    (checkItems check (place + 1) (items.drop (place + 1))).issues (fun issue present begins => ?_)
    fun other => ?_
  · obtain ⟨further, begins⟩ := begins
    rcases List.mem_append.mp present with before | behind
    · obtain ⟨other, rest, path, _, upper⟩ := path_checkItems before
      rw [path] at begins
      cases begins
      simp only [List.length_take] at upper
      omega
    · obtain ⟨other, rest, path, lower, _⟩ := path_checkItems behind
      rw [path] at begins
      cases begins
      omega
  · simp only [replace, found, checkArray, issues_checkItems_set bound]

end Array

/-- What is local inside a member of an object is local in the object. -/
theorem key {whole : Tree → Checked γ} {inner : Tree → Checked α} {known : List Known}
    {entry : Known} (isLocal : IsLocal inner path part)
    (object : ∀ members, (whole (.object members)).issues = membersIssues known members)
    (distinct : (known.map Known.key).Nodup) (listed : entry ∈ known)
    (checked : ∀ member, entry.issues (some member) = (inner member).issues) :
    IsLocal whole (.key entry.key :: path) part := by
  intro tree element there
  obtain ⟨members, member, rfl, found, inside⟩ := at?_key there
  obtain ⟨before, after, rfl⟩ := List.append_of_mem listed
  rw [List.map_append, List.map_cons, List.nodup_append] at distinct
  obtain ⟨_, own, apart⟩ := distinct
  have absentBehind : entry.key ∉ after.map Known.key := (List.nodup_cons.mp own).1
  have absent : entry.key ∉ before.map Known.key := fun member =>
    apart _ member _ List.mem_cons_self rfl
  refine isLocal.around inside (membersIssues before members) (membersIssues after members)
    (fun issue present => ?_) fun other => ?_
  · rcases List.mem_append.mp present with front | back
    · exact path_membersIssues absent front
    · exact path_membersIssues absentBehind back
  · simp only [replace, found, object, membersIssues_append, membersIssues_cons,
      membersIssues_put _ _ absent, membersIssues_put _ _ absentBehind, Table.lookup_put, if_true,
      checked]

end IsLocal

end Tree

namespace Document

open Tree.IsLocal

/-- The elements of the arrays of a document. -/
inductive Element where
  | constant (place : Nat)
  | declaration (place : Nat)
  | field (owner place : Nat)
deriving Repr, DecidableEq

def Element.path : Element → List PathStep
  | .constant place => [.key "constants", .index place]
  | .declaration place => [.key "structures", .index place]
  | .field owner place => [.key "structures", .index owner, .key "fields", .index place]

/-- What is wrong with an element by itself. -/
def Element.issues (element : Element) (tree : Tree) : List Issue :=
  match element with
  | .constant _ => (checkConstant tree).issues
  | .declaration _ => (checkDeclaration tree).issues
  | .field _ _ => (checkField tree).issues

/-- The members of a document, in the order in which they are checked. -/
def parts : List Tree.Known :=
  [.optional "endianness" checkByteOrder,
    .optional "constants" (Tree.checkArray checkConstant),
    .required "structures" (Tree.checkArray checkDeclaration)]

/-- The members of a structure, in the order in which they are checked. -/
def declarationParts : List Tree.Known :=
  [.required "name" checkIdentifier, .required "signature" checkSignature,
    .optional "endianness" checkByteOrder, .optional "hint" checkHint,
    .required "fields" (Tree.checkArray checkField)]

theorem issues_check (members : List (String × Tree)) :
    (check (.object members)).issues = Tree.membersIssues parts members := by
  simp only [check, Tree.checkObject, Checked.issues_applicative, Checked.issues_functor,
    Tree.issues_optional, Tree.issues_required, ← Tree.membersIssues_append]
  rfl

theorem issues_checkDeclaration (members : List (String × Tree)) :
    (checkDeclaration (.object members)).issues =
      Tree.membersIssues declarationParts members := by
  simp only [checkDeclaration, Tree.checkObject, Checked.issues_applicative,
    Checked.issues_functor, Tree.issues_optional, Tree.issues_required,
    ← Tree.membersIssues_append]
  rfl

theorem parts_distinct : (parts.map Tree.Known.key).Nodup := by decide

theorem declarationParts_distinct : (declarationParts.map Tree.Known.key).Nodup := by decide

theorem constant_local (place : Nat) :
    Tree.IsLocal check [.key "constants", .index place] checkConstant :=
  key (self.index place) issues_check parts_distinct (.tail _ (.head _)) fun _ => rfl

theorem declaration_local {α : Type} {path : List PathStep} {part : Tree → Checked α}
    (inner : Tree.IsLocal checkDeclaration path part) (place : Nat) :
    Tree.IsLocal check (.key "structures" :: .index place :: path) part :=
  key (inner.index place) issues_check parts_distinct (.tail _ (.tail _ (.head _))) fun _ => rfl

theorem field_local (place : Nat) : Tree.IsLocal checkDeclaration
    [.key "fields", .index place] checkField :=
  key (self.index place) issues_checkDeclaration declarationParts_distinct
    (.tail _ (.tail _ (.tail _ (.tail _ (.head _))))) fun _ => rfl

/-- All that is wrong with the document in a tree. -/
def reported (tree : Option Tree) : List Issue :=
  match ofTree tree with
  | .ok _ => []
  | .error issues => issues

theorem reported_some (tree : Tree) : reported (some tree) = (check tree).issues := by
  cases checked : check tree <;> simp [reported, ofTree, checked, Checked.issues]

/-- A document is read exactly if nothing is wrong. -/
theorem ofTree_exists_iff (tree : Option Tree) :
    (∃ document, ofTree tree = .ok document) ↔ reported tree = [] := by
  cases tree with
  | none => simp [ofTree, reported]
  | some tree =>
      have complains : (check tree).Complains := Grammar.reads_document.complains
      rw [reported_some]
      cases checked : check tree with
      | valid document => simp [ofTree, checked, Checked.issues]
      | invalid issues =>
          have some : issues ≠ [] := fun none => complains (none ▸ checked)
          simp [ofTree, checked, Checked.issues, some]

/-- Nothing is wrong with an object that has nothing wrong in any part. -/
theorem reported_eq_nil_iff (root : Tree) : reported (some root) = [] ↔
    ∃ members, root = .object members ∧
      ∀ part ∈ parts, part.issues (members.lookup part.key) = [] := by
  rw [reported_some]
  cases root with
  | object members =>
      simp [issues_check, Tree.membersIssues, List.flatMap_eq_nil_iff]
  | null | boolean _ | number _ | string _ | array _ =>
      simp [check, Tree.checkObject, Checked.issues_refuse]

theorem Element.replaced (element : Element) (root part : Tree)
    (there : root.at? element.path = some part) : ∃ front back,
      (∀ other, reported (some (root.replace element.path other)) =
        front ++ (element.issues other).map (Issue.within element.path) ++ back) ∧
      ∀ issue ∈ front ++ back, ¬ element.path <+: issue.path := by
  simp only [reported_some]
  cases element with
  | constant place => exact constant_local place root part there
  | declaration place => exact declaration_local self place root part there
  | field owner place => exact declaration_local (field_local place) owner root part there

/-- A tree is a document exactly if nothing is reported of it, and so if it is an object with
nothing wrong in any part.  What is reported of an element of its arrays is what is wrong with this
element by itself, all of it at one place.  If another element is put there, nothing else changes.
-/
theorem ofTree_local (root : Tree) :
    ((∃ document, ofTree (some root) = .ok document) ↔ reported (some root) = []) ∧
    (reported (some root) = [] ↔ ∃ members, root = .object members ∧
      ∀ part ∈ parts, part.issues (members.lookup part.key) = []) ∧
    ∀ (element : Element) (part : Tree), root.at? element.path = some part → ∃ front back,
      reported (some root) =
        front ++ (element.issues part).map (Issue.within element.path) ++ back ∧
      (∀ other, reported (some (root.replace element.path other)) =
        front ++ (element.issues other).map (Issue.within element.path) ++ back) ∧
      ∀ issue ∈ front ++ back, ¬ element.path <+: issue.path := by
  refine ⟨ofTree_exists_iff (some root), reported_eq_nil_iff root, fun element part there => ?_⟩
  obtain ⟨front, back, replaced, elsewhere⟩ := element.replaced root part there
  have whole := replaced part
  rw [Tree.replace_self there] at whole
  exact ⟨front, back, whole, replaced, elsewhere⟩

/-- The names are no identifiers, and the only field is `null`. -/
def sampleTree : Tree := .object [
  ("structures", .array [.object [
    ("fields", .array [.null]),
    ("name", .string "1st"),
    ("signature", .object [("kind", .string "literal"), ("value", .string "0x1")])]]),
  ("constants", .array [.object [
    ("name", .string ""), ("type", .string "u8"), ("value", .string "0x1")]])]

/-- The issue of the field goes with it, and those of the names stay. -/
theorem ofTree_local_sample :
    let path := (Element.field 0 0).path
    let tag : Tree := .object
      [("kind", .string "primitive"), ("type", .string "u8"), ("name", .string "tag")]
    sampleTree.at? path = some .null ∧
      reported (some sampleTree) =
        [⟨[.key "constants", .index 0, .key "name"], .malformed "identifier"⟩,
          ⟨[.key "structures", .index 0, .key "name"], .malformed "identifier"⟩,
          ⟨path, .wrongType "object" "null"⟩] ∧
      ∃ front back,
        reported (some sampleTree) = front ++ [⟨path, .wrongType "object" "null"⟩] ++ back ∧
        reported (some (sampleTree.replace path tag)) = front ++ back := by
  intro path tag
  have there : sampleTree.at? path = some .null := rfl
  have fine : (Element.field 0 0).issues tag = [] := rfl
  obtain ⟨_, _, isLocal⟩ := ofTree_local sampleTree
  obtain ⟨front, back, whole, replaced, _⟩ := isLocal (.field 0 0) .null there
  refine ⟨there, rfl, front, back, whole, ?_⟩
  rw [replaced tag, fine, List.map_nil, List.append_nil]

end Document

end Carve
