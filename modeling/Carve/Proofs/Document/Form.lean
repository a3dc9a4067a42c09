import Carve.Document
import Carve.Text.LowerCase
import Mathlib.Data.List.Forall2

/-!
Forms of trees, and the checks that read them.

A form is a set of trees with what is kept of each of them (`Form`).  A check reads a form if it
accepts the trees of the form and no others, and gives what is written as the kept tree
(`Form.Reads`).  The checks of arrays, of objects and of tagged objects read the forms put together
from those of their parts.
-/

namespace Carve

namespace Checked

variable {α β γ : Type}

def pair (first : Checked α) (second : Checked β) : Checked (α × β) := Prod.mk <$> first <*> second

theorem map_map {inner : α → β} {outer : β → γ} {checked : Checked α} :
    outer <$> inner <$> checked = (fun value => outer (inner value)) <$> checked := by
  cases checked <;> rfl

theorem map_seq {change : α → β → γ} {first : Checked α} {second : Checked β} :
    change <$> first <*> second = (fun both => change both.1 both.2) <$> pair first second := by
  cases first <;> cases second <;> rfl

theorem map_eq_valid {change : α → β} {checked : Checked α} {value : β} :
    change <$> checked = .valid value ↔ ∃ part, checked = .valid part ∧ change part = value := by
  cases checked with
  | valid part => simp [Functor.map, map]
  | invalid issues => simp [Functor.map, map]

theorem pair_eq_valid {first : Checked α} {second : Checked β} {value : α × β} :
    pair first second = .valid value ↔ first = .valid value.1 ∧ second = .valid value.2 := by
  cases first <;> cases second <;> simp [pair, Functor.map, map, Seq.seq, seq, Prod.ext_iff]

theorem under_eq_valid {step : PathStep} {checked : Checked α} {value : α} :
    checked.under step = .valid value ↔ checked = .valid value := by
  cases checked <;> simp [under]

/-- A check that does not pass says what is wrong. -/
def Complains (checked : Checked α) : Prop := checked ≠ .invalid []

theorem valid_complains {value : α} : (valid value).Complains := by
  intro same
  cases same

theorem refuse_complains {complaint : Complaint} : (refuse complaint : Checked α).Complains := by
  intro same
  cases same

theorem Complains.map {change : α → β} {checked : Checked α} (complains : checked.Complains) :
    (change <$> checked).Complains := by
  cases checked with
  | valid value => exact valid_complains
  | invalid issues => simpa [Complains, Functor.map, Checked.map] using complains

theorem Complains.pair {first : Checked α} {second : Checked β} (complains : first.Complains)
    (alsoComplains : second.Complains) : (pair first second).Complains := by
  cases first <;> cases second <;>
    simp_all [Complains, Checked.pair, Functor.map, Checked.map, Seq.seq, seq, issues]

theorem Complains.under {step : PathStep} {checked : Checked α} (complains : checked.Complains) :
    (checked.under step).Complains := by
  cases checked with
  | valid value => exact valid_complains
  | invalid issues => simpa [Complains, Checked.under] using complains

end Checked

/-- A set of trees, and what is kept of a tree in it. -/
structure Form where
  Accepts : Tree → Prop
  normal : Tree → Tree

/-- A member that objects may have, and have to if it is required. -/
structure Member where
  key : String
  required : Bool
  form : Form

namespace Member

def Accepts (members : List (String × Tree)) (member : Member) : Prop :=
  match members.lookup member.key with
  | some tree => member.form.Accepts tree
  | none => member.required = false

def kept (members : List (String × Tree)) (member : Member) : List (String × Tree) :=
  Document.optionalMember member.key ((members.lookup member.key).map member.form.normal)

end Member

namespace Form

def text (Passes : String → Prop) : Form where
  Accepts tree := ∃ text, tree = .string text ∧ Passes text
  normal := id

/-- One of some words in any letter case, kept in small letters. -/
def keyword (words : List String) : Form where
  Accepts tree := ∃ text, tree = .string text ∧ Text.lower text ∈ words
  normal
    | .string text => .string (Text.lower text)
    | other => other

def array (item : Form) : Form where
  Accepts tree := ∃ items, tree = .array items ∧ ∀ tree ∈ items, item.Accepts tree
  normal
    | .array items => .array (items.map item.normal)
    | other => other

/-- An object with some members, kept in the order of the list.  It may have others, which are not
kept. -/
def object (known : List Member) : Form where
  Accepts tree := ∃ members, tree = .object members ∧ ∀ member ∈ known, member.Accepts members
  normal
    | .object members => .object (known.flatMap (Member.kept members))
    | other => other

/-- An object with a tag as its kind, in front of other members. -/
def variant (tag : String) (known : List Member) : Form :=
  object ({ key := "kind", required := true, form := text (· = tag) } :: known)

/-- An object with one of some tags and the members that go with it. -/
def tagged (shapes : List (String × List Member)) : Form where
  Accepts tree := ∃ shape ∈ shapes, (variant shape.1 shape.2).Accepts tree
  normal
    | .object members =>
        match members.lookup "kind" with
        | some (.string tag) =>
            (variant tag ((shapes.lookup tag).getD [])).normal (.object members)
        | _ => .object members
    | other => other

variable {α β γ : Type}

/-- The check accepts the trees of the form, and complains about all others.  What it gives is
written as what the form keeps, from where it is read again. -/
structure Reads (form : Form) (check : Tree → Checked α) (write : α → Tree) (Spelled : α → Prop) :
    Prop where
  accepts {tree : Tree} : (∃ value, check tree = .valid value) ↔ form.Accepts tree
  written {tree : Tree} {value : α} : check tree = .valid value → write value = form.normal tree
  again {tree : Tree} {value : α} :
    check tree = .valid value → check (form.normal tree) = .valid value
  spelled {tree : Tree} {value : α} : check tree = .valid value → Spelled value
  complains {tree : Tree} : (check tree).Complains

/-- The other object has the known members of the first as they are kept. -/
def Keeps (known : List Member) (members other : List (String × Tree)) : Prop :=
  ∀ member ∈ known,
    other.lookup member.key = (members.lookup member.key).map member.form.normal

/-- As `Reads`, for the members of an object, whose place in what is written is `place`. -/
structure ReadsMembers (known : List Member) (check : List (String × Tree) → Checked α)
    (place : List (String × Tree) → γ) (write : α → γ) (Spelled : α → Prop) : Prop where
  accepts {members : List (String × Tree)} :
    (∃ value, check members = .valid value) ↔ ∀ member ∈ known, member.Accepts members
  written {members : List (String × Tree)} {value : α} :
    check members = .valid value → write value = place (known.flatMap (Member.kept members))
  again {members other : List (String × Tree)} {value : α} :
    check members = .valid value → Keeps known members other → check other = .valid value
  spelled {members : List (String × Tree)} {value : α} :
    check members = .valid value → Spelled value
  complains {members : List (String × Tree)} : (check members).Complains

section Text

theorem checkFormat_eq_valid {format : String} {test : String → Bool} {tree : Tree}
    {value : String} :
    tree.checkFormat format test = .valid value ↔ tree = .string value ∧ test value = true := by
  cases tree with
  | string text =>
      simp only [Tree.checkFormat, Tree.checkString, Tree.string.injEq]
      split
      · next passes =>
          simp only [Checked.valid.injEq]
          exact ⟨fun same => ⟨same, same ▸ passes⟩, And.left⟩
      · next fails =>
          constructor
          · intro same
            cases same
          · intro same
            exact absurd (same.1 ▸ same.2) fails
  | null | boolean _ | number _ | array _ | object _ =>
      simp [Tree.checkFormat, Tree.checkString, Checked.refuse]

theorem checkFormat_complains {format : String} {test : String → Bool} {tree : Tree} :
    (tree.checkFormat format test).Complains := by
  cases tree <;> grind [Tree.checkFormat, Tree.checkString, Checked.refuse, Checked.Complains]

theorem reads_text {format : String} {test : String → Bool} {Passes : String → Prop}
    (decides : ∀ {text}, test text = true ↔ Passes text) :
    (text Passes).Reads (Tree.checkFormat format test) Tree.string Passes where
  accepts {tree} := by
    simp only [checkFormat_eq_valid, decides]
    rfl
  written checked := (checkFormat_eq_valid.mp checked).1.symm
  again checked := checked
  spelled checked := decides.mp (checkFormat_eq_valid.mp checked).2
  complains := checkFormat_complains

theorem checkChoice_eq_valid {choices : List (String × α)} {tree : Tree} {value : α} :
    tree.checkChoice choices = .valid value ↔
      ∃ text, tree = .string text ∧ choices.lookup text = some value := by
  cases tree with
  | string text =>
      cases found : choices.lookup text <;> simp [Tree.checkChoice, Checked.refuse, found]
  | null | boolean _ | number _ | array _ | object _ => simp [Tree.checkChoice, Checked.refuse]

theorem checkChoice_complains {choices : List (String × α)} {tree : Tree} :
    (tree.checkChoice choices).Complains := by
  cases tree <;> grind [Tree.checkChoice, Checked.refuse, Checked.Complains]

/-- One of some words, each with the value that is written as it. -/
theorem reads_choice {choices : List (String × α)} {words : List String} {word : α → String}
    (listed : choices.map Prod.fst = words)
    (named : ∀ choice ∈ choices, word choice.2 = choice.1) :
    (text (· ∈ words)).Reads (Tree.checkChoice choices) (fun value => .string (word value))
      fun _ => True where
  accepts {tree} := by
    subst listed
    simp only [checkChoice_eq_valid, text]
    constructor
    · intro read
      obtain ⟨value, text, rfl, found⟩ := read
      exact ⟨text, rfl, List.mem_map_of_mem (mem_of_lookup found)⟩
    · intro accepted
      obtain ⟨text, rfl, member⟩ := accepted
      have known : (choices.lookup text).isSome := by
        obtain ⟨choice, listed, rfl⟩ := List.mem_map.mp member
        exact List.lookup_isSome_iff.mpr ⟨choice, listed, beq_self_eq_true _⟩
      obtain ⟨value, found⟩ := Option.isSome_iff_exists.mp known
      exact ⟨value, text, rfl, found⟩
  written checked := by
    obtain ⟨text, rfl, found⟩ := checkChoice_eq_valid.mp checked
    exact congrArg Tree.string (named _ (mem_of_lookup found))
  again checked := checked
  spelled _ := trivial
  complains := checkChoice_complains

end Text

section Array

variable {check : Tree → Checked α} {form : Form} {write : α → Tree} {Spelled : α → Prop}

theorem checkItems_eq_valid {index : Nat} {items : List Tree} {values : List α} :
    Tree.checkItems check index items = .valid values ↔
      List.Forall₂ (fun item value => check item = .valid value) items values := by
  induction items generalizing index values with
  | nil => simp [Tree.checkItems, eq_comm]
  | cons item rest ih =>
      simp only [Tree.checkItems, Checked.map_seq, Checked.map_eq_valid, Checked.pair_eq_valid,
        Checked.under_eq_valid, ih, List.forall₂_cons_left_iff]
      constructor
      · intro read
        obtain ⟨⟨value, more⟩, ⟨checked, all⟩, rfl⟩ := read
        exact ⟨value, more, checked, all, rfl⟩
      · intro accepted
        obtain ⟨value, more, checked, all, rfl⟩ := accepted
        exact ⟨(value, more), ⟨checked, all⟩, rfl⟩

theorem checkItems_complains (complains : ∀ {tree}, (check tree).Complains) {index : Nat}
    {items : List Tree} : (Tree.checkItems check index items).Complains := by
  induction items generalizing index with
  | nil => exact Checked.valid_complains
  | cons item rest ih =>
      simp only [Tree.checkItems, Checked.map_seq]
      exact (complains.under.pair ih).map

theorem checkArray_eq_valid {tree : Tree} {values : List α} :
    tree.checkArray check = .valid values ↔ ∃ items, tree = .array items ∧
      List.Forall₂ (fun item value => check item = .valid value) items values := by
  cases tree <;> simp [Tree.checkArray, checkItems_eq_valid, Checked.refuse]

theorem reads_array (item : form.Reads check write Spelled) :
    (array form).Reads (Tree.checkArray check) (fun values => .array (values.map write))
      fun values => ∀ value ∈ values, Spelled value where
  accepts {tree} := by
    have readable (items : List Tree) :
        (∃ values, List.Forall₂ (fun item value => check item = .valid value) items values) ↔
          ∀ tree ∈ items, form.Accepts tree := by
      induction items with
      | nil => simp
      | cons first rest ih =>
          rw [List.forall_mem_cons, ← ih, ← item.accepts]
          simp only [List.forall₂_cons_left_iff]
          constructor
          · intro read
            obtain ⟨_, value, values, checked, all, rfl⟩ := read
            exact ⟨⟨value, checked⟩, values, all⟩
          · intro accepted
            obtain ⟨⟨value, checked⟩, values, all⟩ := accepted
            exact ⟨_, value, values, checked, all, rfl⟩
    simp only [checkArray_eq_valid, array, ← readable]
    constructor
    · intro read
      obtain ⟨values, items, rfl, all⟩ := read
      exact ⟨items, rfl, values, all⟩
    · intro accepted
      obtain ⟨items, rfl, values, all⟩ := accepted
      exact ⟨values, items, rfl, all⟩
  written checked := by
    obtain ⟨items, rfl, all⟩ := checkArray_eq_valid.mp checked
    refine congrArg Tree.array ?_
    clear checked
    induction all with
    | nil => rfl
    | cons first _ ih => simp only [List.map_cons, item.written first, ih]
  again checked := by
    obtain ⟨items, rfl, all⟩ := checkArray_eq_valid.mp checked
    refine checkArray_eq_valid.mpr ⟨items.map form.normal, rfl, ?_⟩
    exact List.forall₂_map_left_iff.mpr (all.imp fun _ _ => item.again)
  spelled checked := by
    obtain ⟨items, rfl, all⟩ := checkArray_eq_valid.mp checked
    clear checked
    induction all with
    | nil => exact fun _ member => absurd member List.not_mem_nil
    | cons first _ ih => exact List.forall_mem_cons.mpr ⟨item.spelled first, ih⟩
  complains {tree} := by
    cases tree with
    | array items => exact checkItems_complains item.complains
    | null | boolean _ | number _ | string _ | object _ => exact Checked.refuse_complains

end Array

section Members

variable {check : Tree → Checked α} {form : Form} {write : α → Tree} {Spelled : α → Prop}
  {members : List (String × Tree)} {key : String}

/-- An object of which nothing is wanted. -/
theorem reads_nothing {place : List (String × Tree) → γ} {write : α → γ} {value : α}
    (placed : write value = place []) (spelled : Spelled value) :
    ReadsMembers [] (fun _ => .valid value) place write Spelled where
  accepts := by simp
  written := by
    rintro _ _ ⟨⟩
    exact placed
  again checked _ := checked
  spelled := by
    rintro _ _ ⟨⟩
    exact spelled
  complains := Checked.valid_complains

theorem checkRequired_eq_valid {value : α} :
    Tree.checkRequired members key check = .valid value ↔
      ∃ tree, members.lookup key = some tree ∧ check tree = .valid value := by
  cases found : members.lookup key <;>
    simp [Tree.checkRequired, found, Checked.under_eq_valid, Checked.refuse]

theorem checkOptional_eq_valid {γ : Type} {members : List (String × γ)} {check : γ → Checked α}
    {value : Option α} :
    Tree.checkOptional members key check = .valid value ↔
      (members.lookup key = none ∧ value = none) ∨
        ∃ member part, members.lookup key = some member ∧ check member = .valid part ∧
          value = some part := by
  cases found : members.lookup key with
  | none => simp [Tree.checkOptional, found, eq_comm]
  | some member =>
      simp [Tree.checkOptional, found, Checked.map_eq_valid, Checked.under_eq_valid,
        eq_comm (a := value)]

theorem reads_required (part : form.Reads check write Spelled) :
    ReadsMembers [{ key, required := true, form }]
      (fun members => Tree.checkRequired members key check) id (fun value => [(key, write value)])
      Spelled where
  accepts {members} := by
    cases found : members.lookup key <;>
      simp [checkRequired_eq_valid, Member.Accepts, found, part.accepts]
  written checked := by
    obtain ⟨tree, found, checked⟩ := checkRequired_eq_valid.mp checked
    simp [Member.kept, Document.optionalMember, found, part.written checked]
  again checked keeps := by
    obtain ⟨tree, found, checked⟩ := checkRequired_eq_valid.mp checked
    have kept := keeps _ List.mem_cons_self
    simp only [found, Option.map_some] at kept
    exact checkRequired_eq_valid.mpr ⟨_, kept, part.again checked⟩
  spelled checked := by
    obtain ⟨tree, _, checked⟩ := checkRequired_eq_valid.mp checked
    exact part.spelled checked
  complains {members} := by
    unfold Tree.checkRequired
    split
    · exact part.complains.under
    · exact Checked.refuse_complains.under

theorem reads_optional (part : form.Reads check write Spelled) :
    ReadsMembers [{ key, required := false, form }]
      (fun members => Tree.checkOptional members key check) id
      (fun value => Document.optionalMember key (value.map write))
      fun value => ∀ part ∈ value, Spelled part where
  accepts {members} := by
    cases found : members.lookup key <;>
      simp [checkOptional_eq_valid, Member.Accepts, found, ← part.accepts]
  written checked := by
    rcases checkOptional_eq_valid.mp checked with ⟨absent, rfl⟩ | ⟨tree, value, found, passed, rfl⟩
    · simp [Member.kept, absent]
    · simp [Member.kept, found, part.written passed]
  again checked keeps := by
    have kept := keeps _ List.mem_cons_self
    rcases checkOptional_eq_valid.mp checked with ⟨absent, rfl⟩ | ⟨tree, value, found, passed, rfl⟩
    · simp only [absent, Option.map_none] at kept
      exact checkOptional_eq_valid.mpr (.inl ⟨kept, rfl⟩)
    · simp only [found, Option.map_some] at kept
      exact checkOptional_eq_valid.mpr (.inr ⟨_, value, kept, part.again passed, rfl⟩)
  spelled checked := by
    rcases checkOptional_eq_valid.mp checked with ⟨_, rfl⟩ | ⟨tree, value, _, passed, rfl⟩
    · exact fun _ member => absurd member (Option.not_mem_none _)
    · rintro _ ⟨⟩
      exact part.spelled passed
  complains {members} := by
    unfold Tree.checkOptional
    split
    · exact part.complains.under.map
    · exact Checked.valid_complains

theorem ReadsMembers.pair {known more : List Member}
    {first : List (String × Tree) → Checked α} {second : List (String × Tree) → Checked β}
    {writeFirst : α → List (String × Tree)} {writeSecond : β → List (String × Tree)}
    {FirstSpelled : α → Prop} {SecondSpelled : β → Prop}
    (parts : ReadsMembers known first id writeFirst FirstSpelled)
    (others : ReadsMembers more second id writeSecond SecondSpelled) :
    ReadsMembers (known ++ more) (fun members => (first members).pair (second members)) id
      (fun both => writeFirst both.1 ++ writeSecond both.2)
      fun both => FirstSpelled both.1 ∧ SecondSpelled both.2 where
  accepts {members} := by
    rw [List.forall_mem_append, ← parts.accepts, ← others.accepts]
    simp only [Checked.pair_eq_valid, Prod.exists, exists_and_left, exists_and_right]
  written checked := by
    obtain ⟨one, other⟩ := Checked.pair_eq_valid.mp checked
    simp only [parts.written one, others.written other, List.flatMap_append, id]
  again checked keeps := by
    obtain ⟨one, other⟩ := Checked.pair_eq_valid.mp checked
    obtain ⟨keepsOne, keepsOther⟩ := List.forall_mem_append.mp keeps
    exact Checked.pair_eq_valid.mpr ⟨parts.again one keepsOne, others.again other keepsOther⟩
  spelled checked := by
    obtain ⟨one, other⟩ := Checked.pair_eq_valid.mp checked
    exact ⟨parts.spelled one, others.spelled other⟩
  complains := parts.complains.pair others.complains

theorem ReadsMembers.map {known : List Member} {check : List (String × Tree) → Checked α}
    {place : List (String × Tree) → γ} {writeParts : α → List (String × Tree)}
    {PartsSpelled : α → Prop} {write : β → γ} {Spelled : β → Prop} {make : α → β}
    (parts : ReadsMembers known check id writeParts PartsSpelled)
    (placed : ∀ value, write (make value) = place (writeParts value))
    (spelled : ∀ value, PartsSpelled value → Spelled (make value)) :
    ReadsMembers known (fun members => make <$> check members) place write Spelled where
  accepts {members} := by
    rw [← parts.accepts]
    simp only [Checked.map_eq_valid]
    constructor
    · intro read
      obtain ⟨_, value, checked, _⟩ := read
      exact ⟨value, checked⟩
    · intro accepted
      obtain ⟨value, checked⟩ := accepted
      exact ⟨_, value, checked, rfl⟩
  written checked := by
    obtain ⟨value, passed, rfl⟩ := Checked.map_eq_valid.mp checked
    rw [placed, parts.written passed, id]
  again checked keeps := by
    obtain ⟨value, passed, rfl⟩ := Checked.map_eq_valid.mp checked
    exact Checked.map_eq_valid.mpr ⟨value, parts.again passed keeps, rfl⟩
  spelled checked := by
    obtain ⟨value, passed, rfl⟩ := Checked.map_eq_valid.mp checked
    exact spelled value (parts.spelled passed)
  complains := parts.complains.map

end Members

section Object

variable {known : List Member} {check : List (String × Tree) → Checked α} {write : α → Tree}
  {Spelled : α → Prop}

theorem checkObject_eq_valid {tree : Tree} {value : α} :
    tree.checkObject check = .valid value ↔
      ∃ members, tree = .object members ∧ check members = .valid value := by
  cases tree <;> simp [Tree.checkObject, Checked.refuse]

theorem lookup_kept {members : List (String × Tree)} {key : String}
    (absent : key ∉ known.map Member.key) :
    (known.flatMap (Member.kept members)).lookup key = none := by
  refine List.lookup_eq_none_iff.mpr fun entry there => ?_
  obtain ⟨member, listed, kept⟩ := List.mem_flatMap.mp there
  have named : entry.1 = member.key := by
    unfold Member.kept Document.optionalMember at kept
    split at kept <;> simp_all
  have other : key ≠ member.key := by
    rintro rfl
    exact absent (List.mem_map_of_mem listed)
  simpa [named] using other

theorem keeps_kept (distinct : (known.map Member.key).Nodup) {members : List (String × Tree)} :
    Keeps known members (known.flatMap (Member.kept members)) := by
  induction known with
  | nil => exact fun _ member => absurd member List.not_mem_nil
  | cons member rest ih =>
      obtain ⟨fresh, distinct⟩ := List.nodup_cons.mp distinct
      have kept : (member.kept members).lookup member.key =
          (members.lookup member.key).map member.form.normal := by
        unfold Member.kept
        cases members.lookup member.key <;> simp [Document.optionalMember]
      intro other listed
      rw [List.flatMap_cons, List.lookup_append]
      rcases List.mem_cons.mp listed with rfl | listed
      · rw [kept, lookup_kept fresh, Option.or_none]
      · have different : other.key ≠ member.key := by
          intro same
          exact fresh (same ▸ List.mem_map_of_mem listed)
        have elsewhere : (member.kept members).lookup other.key = none := by
          have absent : other.key ∉ [member].map Member.key := by simpa using different
          simpa using lookup_kept absent
        rw [elsewhere, Option.none_or, ih distinct other listed]

theorem reads_object (parts : ReadsMembers known check .object write Spelled)
    (distinct : (known.map Member.key).Nodup) :
    (object known).Reads (Tree.checkObject check) write Spelled where
  accepts {tree} := by
    simp only [checkObject_eq_valid, object, ← parts.accepts]
    constructor
    · intro read
      obtain ⟨value, members, rfl, checked⟩ := read
      exact ⟨members, rfl, value, checked⟩
    · intro accepted
      obtain ⟨members, rfl, value, checked⟩ := accepted
      exact ⟨value, members, rfl, checked⟩
  written checked := by
    obtain ⟨members, rfl, passed⟩ := checkObject_eq_valid.mp checked
    exact parts.written passed
  again checked := by
    obtain ⟨members, rfl, passed⟩ := checkObject_eq_valid.mp checked
    exact checkObject_eq_valid.mpr ⟨_, rfl, parts.again passed (keeps_kept distinct)⟩
  spelled checked := by
    obtain ⟨members, rfl, passed⟩ := checkObject_eq_valid.mp checked
    exact parts.spelled passed
  complains {tree} := by
    cases tree with
    | object members => exact parts.complains
    | null | boolean _ | number _ | string _ | array _ => exact Checked.refuse_complains

end Object

section Tagged

variable {write : α → Tree} {Spelled : α → Prop} {shapes : List (String × List Member)}
  {checks : List (String × (List (String × Tree) → Checked α))}

theorem variant_accepts {tag : String} {known : List Member} {tree : Tree} :
    (variant tag known).Accepts tree ↔ ∃ members, tree = .object members ∧
      members.lookup "kind" = some (.string tag) ∧ ∀ member ∈ known, member.Accepts members := by
  have kind {members : List (String × Tree)} :
      ({ key := "kind", required := true, form := text (· = tag) } : Member).Accepts members ↔
        members.lookup "kind" = some (.string tag) := by
    cases found : members.lookup "kind" <;> simp [Member.Accepts, found, text]
  simp only [variant, object, List.forall_mem_cons, kind]

theorem variant_normal {tag : String} {known : List Member} {members : List (String × Tree)}
    (kind : members.lookup "kind" = some (.string tag)) :
    (variant tag known).normal (.object members) =
      .object (("kind", .string tag) :: known.flatMap (Member.kept members)) := by
  simp [variant, object, Member.kept, Document.optionalMember, kind, text]

/-- The check of an object with a tag reads the members that go with it. -/
structure ReadsVariant (write : α → Tree) (Spelled : α → Prop) (shape : String × List Member)
    (entry : String × (List (String × Tree) → Checked α)) : Prop where
  tag : entry.1 = shape.1
  distinct : ("kind" :: shape.2.map Member.key).Nodup
  parts : ReadsMembers shape.2 entry.2
    (fun members => .object (("kind", .string shape.1) :: members)) write Spelled

theorem lookup_variants (variants : List.Forall₂ (ReadsVariant write Spelled) shapes checks)
    (tag : String) :
    shapes.lookup tag = none ∧ checks.lookup tag = none ∨
      ∃ known check, shapes.lookup tag = some known ∧ checks.lookup tag = some check ∧
        ReadsVariant write Spelled (tag, known) (tag, check) := by
  induction variants with
  | nil => exact .inl ⟨rfl, rfl⟩
  | @cons shape entry _ _ variant _ ih =>
      obtain ⟨name, known⟩ := shape
      obtain ⟨other, check⟩ := entry
      obtain rfl : other = name := variant.tag
      by_cases same : tag = other
      · subst same
        exact .inr ⟨known, check, by simp, by simp, variant⟩
      · have skip {δ : Type} (value : δ) (rest : List (String × δ)) :
            ((other, value) :: rest).lookup tag = rest.lookup tag := by
          simp [List.lookup_cons, beq_false_of_ne same]
        simpa only [skip] using ih

theorem checkTagged_eq_valid {tree : Tree} {value : α} :
    tree.checkTagged checks = .valid value ↔ ∃ members tag check, tree = .object members ∧
      members.lookup "kind" = some (.string tag) ∧ checks.lookup tag = some check ∧
      check members = .valid value := by
  simp only [Tree.checkTagged, checkObject_eq_valid]
  constructor
  · intro read
    obtain ⟨members, rfl, checked⟩ := read
    split at checked
    · next tag kind =>
        split at checked
        · next check found => exact ⟨members, tag, check, rfl, kind, found, checked⟩
        · contradiction
    · contradiction
  · intro accepted
    obtain ⟨members, tag, check, rfl, kind, found, checked⟩ := accepted
    exact ⟨members, rfl, by simp only [kind, found, checked]⟩

/-- What a check of tagged objects gives, it gives as the check of one of the shapes. -/
theorem checkTagged_variant (variants : List.Forall₂ (ReadsVariant write Spelled) shapes checks)
    {tree : Tree} {value : α} (checked : tree.checkTagged checks = .valid value) :
    ∃ members tag known check, tree = .object members ∧
      members.lookup "kind" = some (.string tag) ∧ shapes.lookup tag = some known ∧
      checks.lookup tag = some check ∧ ReadsVariant write Spelled (tag, known) (tag, check) ∧
      check members = .valid value := by
  obtain ⟨members, tag, check, rfl, kind, found, passed⟩ := checkTagged_eq_valid.mp checked
  rcases lookup_variants variants tag with ⟨_, absent⟩ | ⟨known, _, listed, same, variant⟩
  · cases found.symm.trans absent
  · cases found.symm.trans same
    exact ⟨members, tag, known, check, rfl, kind, listed, found, variant, passed⟩

theorem tagged_normal {members : List (String × Tree)} {tag : String} {known : List Member}
    (kind : members.lookup "kind" = some (.string tag)) (listed : shapes.lookup tag = some known) :
    (tagged shapes).normal (.object members) =
      .object (("kind", .string tag) :: known.flatMap (Member.kept members)) := by
  simp only [tagged, kind, listed, Option.getD_some, variant_normal]

theorem reads_tagged (variants : List.Forall₂ (ReadsVariant write Spelled) shapes checks)
    (distinct : (shapes.map Prod.fst).Nodup) :
    (tagged shapes).Reads (Tree.checkTagged checks) write Spelled where
  accepts {tree} := by
    simp only [tagged, variant_accepts]
    constructor
    · intro read
      obtain ⟨value, checked⟩ := read
      obtain ⟨members, tag, known, check, rfl, kind, listed, _, variant, passed⟩ :=
        checkTagged_variant variants checked
      exact ⟨(tag, known), mem_of_lookup listed, members, rfl, kind,
        variant.parts.accepts.mp ⟨value, passed⟩⟩
    · intro accepted
      obtain ⟨⟨tag, known⟩, listed, members, rfl, kind, accepted⟩ := accepted
      have found := lookup_of_mem distinct listed
      rcases lookup_variants variants tag with ⟨absent, _⟩ | ⟨_, check, same, there, variant⟩
      · cases found.symm.trans absent
      · cases found.symm.trans same
        obtain ⟨value, passed⟩ := variant.parts.accepts.mpr accepted
        exact ⟨value, checkTagged_eq_valid.mpr ⟨members, tag, check, rfl, kind, there, passed⟩⟩
  written checked := by
    obtain ⟨members, tag, known, check, rfl, kind, listed, _, variant, passed⟩ :=
      checkTagged_variant variants checked
    rw [tagged_normal kind listed, variant.parts.written passed]
  again checked := by
    obtain ⟨members, tag, known, check, rfl, kind, listed, found, variant, passed⟩ :=
      checkTagged_variant variants checked
    rw [tagged_normal kind listed]
    refine checkTagged_eq_valid.mpr ⟨_, tag, check, rfl, by simp, found, ?_⟩
    refine variant.parts.again passed fun member there => ?_
    obtain ⟨untagged, distinct⟩ := List.nodup_cons.mp variant.distinct
    have other : member.key ≠ "kind" := by
      intro same
      exact untagged (same ▸ List.mem_map_of_mem there)
    simpa [List.lookup_cons, beq_false_of_ne other] using keeps_kept distinct member there
  spelled checked := by
    obtain ⟨_, _, _, _, _, _, _, _, variant, passed⟩ := checkTagged_variant variants checked
    exact variant.parts.spelled passed
  complains {tree} := by
    have unknown {complaint : Complaint} :
        ((Checked.refuse complaint : Checked α).under (.key "kind")).Complains :=
      Checked.refuse_complains.under
    cases tree with
    | object members =>
        simp only [Tree.checkTagged, Tree.checkObject]
        split
        · next tag _ =>
            split
            · next check found =>
                rcases lookup_variants variants tag with ⟨_, absent⟩ | ⟨_, _, _, same, variant⟩
                · cases found.symm.trans absent
                · cases found.symm.trans same
                  exact variant.parts.complains
            · exact unknown
        · exact unknown
    | null | boolean _ | number _ | string _ | array _ => exact Checked.refuse_complains

end Tagged

end Form

end Carve
