import Carve.Document.Check
import Carve.Proofs.Document.Form
import Carve.Proofs.Literal
import Carve.Proofs.Plan.WellFormed

namespace Carve

namespace Literal

/-- A letter or an underscore, then letters, digits, underscores and hyphens. -/
inductive Identifier : String → Prop
  | intro {first : Char} {rest : List Char} (starts : first.isAlpha ∨ first = '_')
      (continues : ∀ char ∈ rest, char.isAlpha ∨ char.isDigit ∨ char = '_' ∨ char = '-') :
      Identifier (String.ofList (first :: rest))

def Hex (literal : String) : Prop := ∃ number, Spells literal number

def SignedHex (literal : String) : Prop := ∃ number, SpellsSigned literal number

theorem startsIdentifier_iff {char : Char} :
    startsIdentifier char = true ↔ char.isAlpha = true ∨ char = '_' := by
  simp only [startsIdentifier, Bool.or_eq_true, decide_eq_true_eq]

theorem continuesIdentifier_iff {char : Char} : continuesIdentifier char = true ↔
    char.isAlpha = true ∨ char.isDigit = true ∨ char = '_' ∨ char = '-' := by
  have digit : Text.isDecimalDigit char = char.isDigit := rfl
  simp only [continuesIdentifier, digit, Bool.or_eq_true, decide_eq_true_eq, startsIdentifier_iff,
    or_assoc]
  exact or_congr_right or_left_comm

theorem isIdentifier_iff {name : String} : isIdentifier name = true ↔ Identifier name := by
  constructor
  · intro passes
    unfold isIdentifier at passes
    split at passes
    · cases passes
    · next first rest text =>
        rw [← String.ofList_toList (s := name), text]
        simp only [Bool.and_eq_true, List.all_eq_true, startsIdentifier_iff,
          continuesIdentifier_iff] at passes
        exact .intro passes.1 passes.2
  · intro spelled
    obtain ⟨begins, goesOn⟩ := spelled
    simp only [isIdentifier, String.toList_ofList, Bool.and_eq_true, List.all_eq_true,
      startsIdentifier_iff, continuesIdentifier_iff]
    exact ⟨begins, goesOn⟩

theorem isHex_iff {literal : String} : isHex literal = true ↔ Hex literal := by
  simp [isHex, Hex, spells_iff, Option.isSome_iff_exists]

theorem isSignedHex_iff {literal : String} : isSignedHex literal = true ↔ SignedHex literal := by
  simp only [SignedHex, ← parseSignedHex_eq_ok, isSignedHex, parseSignedHex]
  cases signedHexDigits? literal.toList <;> simp

end Literal

/-- The names that a document gives are identifiers. -/
structure Reference.Spelled (reference : Reference) : Prop where
  field : Literal.Identifier reference.field
  owner : ∀ owner ∈ reference.owner, Literal.Identifier owner

def Size.Spelled : Size String → Prop
  | .literal value => Literal.Hex value
  | .reference target => target.Spelled

structure Field.Spelled (field : Field String) : Prop where
  name : Literal.Identifier field.name
  size : ∀ size ∈ field.content.size?, size.Spelled
  align : ∀ literal ∈ field.align, Literal.Hex literal
  offset : ∀ literal ∈ field.offset, Literal.SignedHex literal

def Anchor.Spelled : Anchor String → Prop
  | .offset literal => Literal.Hex literal
  | .streamStart | .streamEnd => True

def Hint.Spelled : Hint String → Prop
  | .skip literal => Literal.Hex literal
  | .near anchor => anchor.Spelled

def SignatureSource.Spelled : SignatureSource → Prop
  | .literal value => Literal.Hex value
  | .constant name => Literal.Identifier name

structure Constant.Spelled (constant : Constant) : Prop where
  name : Literal.Identifier constant.name
  value : Literal.Hex constant.value

structure Declaration.Spelled (declaration : Declaration) : Prop where
  name : Literal.Identifier declaration.name
  signature : declaration.signature.Spelled
  hint : ∀ hint ∈ declaration.hint, hint.Spelled
  fields : ∀ field ∈ declaration.fields, field.Spelled

structure Document.Spelled (document : Document) : Prop where
  constants : ∀ constants ∈ document.constants, ∀ constant ∈ constants, constant.Spelled
  structures : ∀ declaration ∈ document.structures, declaration.Spelled

namespace Document

/-! The forms of a document and its parts.  Of a member, `true` says that it is required. -/

namespace Grammar

open Form

def identifier : Form := .text Literal.Identifier

def hex : Form := .text Literal.Hex

def signedHex : Form := .text Literal.SignedHex

def byteOrder : Form := .keyword ["little", "big"]

def integerType : Form :=
  .text (· ∈ ["u8", "u16", "u32", "u64", "u128", "i8", "i16", "i32", "i64", "i128"])

def primitiveType : Form :=
  .text (· ∈ ["u8", "u16", "u32", "u64", "u128", "i8", "i16", "i32", "i64", "i128", "f32", "f64"])

def size : Form := .tagged [
  ("literal", [⟨"value", true, hex⟩]),
  ("reference", [⟨"field", true, identifier⟩, ⟨"structure", false, identifier⟩])]

/-- What a field has behind its content. -/
def placement : List Member :=
  [⟨"name", true, identifier⟩, ⟨"align", false, hex⟩, ⟨"offset", false, signedHex⟩]

def field : Form := .tagged [
  ("primitive", ⟨"type", true, primitiveType⟩ :: placement),
  ("buffer", ⟨"size", true, size⟩ :: placement),
  ("string", ⟨"size", true, size⟩ :: placement)]

def anchor : Form := .tagged [
  ("offset", [⟨"offset", true, hex⟩]),
  ("sos", []),
  ("eos", [])]

def hint : Form := .tagged [
  ("skip", [⟨"offset", true, hex⟩]),
  ("near", [⟨"target", true, anchor⟩])]

def signature : Form := .tagged [
  ("literal", [⟨"value", true, hex⟩]),
  ("constant", [⟨"name", true, identifier⟩])]

def constant : Form :=
  .object [⟨"name", true, identifier⟩, ⟨"type", true, integerType⟩, ⟨"value", true, hex⟩]

def declaration : Form := .object [
  ⟨"name", true, identifier⟩,
  ⟨"signature", true, signature⟩,
  ⟨"endianness", false, byteOrder⟩,
  ⟨"hint", false, hint⟩,
  ⟨"fields", true, .array field⟩]

def document : Form := .object [
  ⟨"endianness", false, byteOrder⟩,
  ⟨"constants", false, .array constant⟩,
  ⟨"structures", true, .array declaration⟩]

theorem reads_identifier :
    identifier.Reads checkIdentifier Tree.string Literal.Identifier :=
  reads_text Literal.isIdentifier_iff

theorem reads_hex : hex.Reads checkHex Tree.string Literal.Hex :=
  reads_text Literal.isHex_iff

theorem reads_signedHex : signedHex.Reads checkSignedHex Tree.string Literal.SignedHex :=
  reads_text Literal.isSignedHex_iff

theorem reads_integerType :
    integerType.Reads checkInteger (fun type => .string type.name) fun _ => True :=
  reads_choice rfl (by simp)

theorem reads_primitiveType :
    primitiveType.Reads checkPrimitive (fun type => .string type.name) fun _ => True :=
  reads_choice rfl (by simp)

theorem checkByteOrder_eq_valid {tree : Tree} {order : ByteOrder} :
    checkByteOrder tree = .valid order ↔
      ∃ text, tree = .string text ∧ Text.lower text = order.keyword := by
  cases tree with
  | string text =>
      simp only [checkByteOrder, Tree.checkString, checkChoice_eq_valid, Tree.string.injEq,
        exists_eq_left']
      cases order <;> simp [List.lookup_cons, ByteOrder.keyword] <;> grind
  | null | boolean _ | number _ | array _ | object _ =>
      simp [checkByteOrder, Tree.checkString, Checked.refuse]

theorem lower_keyword (order : ByteOrder) : Text.lower order.keyword = order.keyword := by
  cases order <;> decide

theorem reads_byteOrder : byteOrder.Reads checkByteOrder byteOrderTree fun _ => True where
  accepts {tree} := by
    simp only [checkByteOrder_eq_valid, byteOrder, keyword]
    constructor
    · intro read
      obtain ⟨order, text, rfl, same⟩ := read
      refine ⟨text, rfl, ?_⟩
      cases order <;> simp [same, ByteOrder.keyword]
    · intro accepted
      obtain ⟨text, rfl, known⟩ := accepted
      rcases List.mem_cons.mp known with same | known
      · exact ⟨.little, text, rfl, same⟩
      · exact ⟨.big, text, rfl, List.mem_singleton.mp known⟩
  written checked := by
    obtain ⟨text, rfl, same⟩ := checkByteOrder_eq_valid.mp checked
    exact congrArg Tree.string same.symm
  again {_ order} checked := by
    obtain ⟨text, rfl, same⟩ := checkByteOrder_eq_valid.mp checked
    refine checkByteOrder_eq_valid.mpr ⟨Text.lower text, rfl, ?_⟩
    rw [same, lower_keyword]
  spelled _ := trivial
  complains {tree} := by
    cases tree with
    | string text =>
        simp only [checkByteOrder, Tree.checkString]
        exact checkChoice_complains
    | null | boolean _ | number _ | array _ | object _ => exact Checked.refuse_complains

theorem reads_size : size.Reads checkSize sizeTree Size.Spelled := by
  refine reads_tagged (.cons ⟨rfl, by simp, ?_⟩ (.cons ⟨rfl, by simp, ?_⟩ .nil)) (by simp)
  · exact (reads_required reads_hex).map (fun _ => rfl) fun _ spelled => spelled
  · simp only [Checked.map_seq]
    exact ((reads_required reads_identifier).pair (reads_optional reads_identifier)).map
      (fun _ => rfl) fun _ spelled => ⟨spelled.1, spelled.2⟩

theorem reads_placed {α : Type} {tag : String} {member : Member}
    {content : List (String × Tree) → Checked α}
    {make : α → Content String} {write : α → List (String × Tree)} {PartSpelled : α → Prop}
    (part : ReadsMembers [member] content id write PartSpelled)
    (written : ∀ value, contentMembers (make value) = ("kind", .string tag) :: write value)
    (spelled : ∀ value, PartSpelled value → ∀ size ∈ (make value).size?, size.Spelled) :
    ReadsMembers (member :: placement)
      (fun members => checkPlaced (make <$> content members) members)
      (fun members => .object (("kind", .string tag) :: members)) fieldTree Field.Spelled := by
  simp only [checkPlaced, Checked.map_map, Checked.map_seq]
  refine (((part.pair (reads_required reads_identifier)).pair (reads_optional reads_hex)).pair
    (reads_optional reads_signedHex)).map (fun value => ?_) ?_
  · simp [fieldTree, written]
  · intro value spelledParts
    obtain ⟨⟨⟨partSpelled, name⟩, align⟩, offset⟩ := spelledParts
    exact ⟨name, spelled _ partSpelled, align, offset⟩

theorem reads_field : field.Reads checkField fieldTree Field.Spelled := by
  refine reads_tagged (.cons ⟨rfl, by simp [placement], ?_⟩
    (.cons ⟨rfl, by simp [placement], ?_⟩ (.cons ⟨rfl, by simp [placement], ?_⟩ .nil))) (by simp)
  · exact reads_placed (reads_required reads_primitiveType) (fun _ => rfl)
      fun _ _ _ member => absurd member (Option.not_mem_none _)
  · refine reads_placed (reads_required reads_size) (fun _ => rfl) ?_
    rintro _ spelled _ ⟨⟩
    exact spelled
  · refine reads_placed (reads_required reads_size) (fun _ => rfl) ?_
    rintro _ spelled _ ⟨⟩
    exact spelled

theorem reads_anchor : anchor.Reads checkAnchor anchorTree Anchor.Spelled := by
  refine reads_tagged (.cons ⟨rfl, by simp, ?_⟩ (.cons ⟨rfl, by simp, ?_⟩
    (.cons ⟨rfl, by simp, ?_⟩ .nil))) (by simp)
  · exact (reads_required reads_hex).map (fun _ => rfl) fun _ spelled => spelled
  · exact reads_nothing rfl trivial
  · exact reads_nothing rfl trivial

theorem reads_hint : hint.Reads checkHint hintTree Hint.Spelled := by
  refine reads_tagged (.cons ⟨rfl, by simp, ?_⟩ (.cons ⟨rfl, by simp, ?_⟩ .nil)) (by simp)
  · exact (reads_required reads_hex).map (fun _ => rfl) fun _ spelled => spelled
  · exact (reads_required reads_anchor).map (fun _ => rfl) fun _ spelled => spelled

theorem reads_signature :
    signature.Reads checkSignature signatureTree SignatureSource.Spelled := by
  refine reads_tagged (.cons ⟨rfl, by simp, ?_⟩ (.cons ⟨rfl, by simp, ?_⟩ .nil)) (by simp)
  · exact (reads_required reads_hex).map (fun _ => rfl) fun _ spelled => spelled
  · exact (reads_required reads_identifier).map (fun _ => rfl) fun _ spelled => spelled

theorem reads_constant : constant.Reads checkConstant constantTree Constant.Spelled := by
  unfold checkConstant
  simp only [Checked.map_seq]
  refine reads_object ((((reads_required reads_identifier).pair
    (reads_required reads_integerType)).pair (reads_required reads_hex)).map (fun _ => rfl) ?_)
    (by simp)
  intro _ spelled
  obtain ⟨⟨name, _⟩, value⟩ := spelled
  exact ⟨name, value⟩

theorem reads_declaration :
    declaration.Reads checkDeclaration declarationTree Declaration.Spelled := by
  unfold checkDeclaration
  simp only [Checked.map_seq]
  refine reads_object ((((((reads_required reads_identifier).pair
    (reads_required reads_signature)).pair (reads_optional reads_byteOrder)).pair
    (reads_optional reads_hint)).pair (reads_required (reads_array reads_field))).map
    (fun _ => rfl) ?_) (by simp)
  intro _ spelled
  obtain ⟨⟨⟨⟨name, signature⟩, _⟩, hint⟩, fields⟩ := spelled
  exact ⟨name, signature, hint, fields⟩

theorem reads_document : document.Reads check toTree Document.Spelled := by
  unfold check
  simp only [Checked.map_seq]
  refine reads_object ((((reads_optional reads_byteOrder).pair
    (reads_optional (reads_array reads_constant))).pair
    (reads_required (reads_array reads_declaration))).map (fun _ => rfl) ?_) (by simp)
  intro _ spelled
  obtain ⟨⟨_, constants⟩, structures⟩ := spelled
  exact ⟨constants, structures⟩

end Grammar

theorem ofTree_eq_ok {tree : Option Tree} {document : Document} :
    ofTree tree = .ok document ↔ ∃ root ∈ tree, check root = .valid document := by
  cases tree with
  | none => simp [ofTree]
  | some root => cases checked : check root <;> simp [ofTree, checked]

/-- What has been read has identifiers for names and hex literals for numbers. -/
theorem ofTree_spelled {tree : Option Tree} {document : Document}
    (read : ofTree tree = .ok document) : document.Spelled := by
  obtain ⟨_, _, checked⟩ := ofTree_eq_ok.mp read
  exact Grammar.reads_document.spelled checked

/-- A tree is read just if it has the form of a document.  What is read is the tree without what the
grammar does not know and with its byte orders in small letters; reading that again changes nothing.
Of any other tree, or of none at all, something is said to be wrong. -/
theorem ofTree_reads_grammar (tree : Option Tree) :
    ((∃ document, ofTree tree = .ok document) ↔
      ∃ root ∈ tree, Grammar.document.Accepts root) ∧
    (∀ document, ofTree tree = .ok document →
      (∃ root ∈ tree, document.toTree = Grammar.document.normal root) ∧
        ofTree (some document.toTree) = .ok document) ∧
    ∀ issues, ofTree tree = .error issues → issues ≠ [] := by
  refine ⟨?_, fun document read => ?_, fun issues refused => ?_⟩
  · simp only [ofTree_eq_ok, ← Grammar.reads_document.accepts]
    constructor
    · intro read
      obtain ⟨document, root, there, checked⟩ := read
      exact ⟨root, there, document, checked⟩
    · intro accepted
      obtain ⟨root, there, document, checked⟩ := accepted
      exact ⟨document, root, there, checked⟩
  · obtain ⟨root, there, checked⟩ := ofTree_eq_ok.mp read
    have kept := Grammar.reads_document.written checked
    refine ⟨⟨root, there, kept⟩, ofTree_eq_ok.mpr ⟨_, rfl, ?_⟩⟩
    rw [kept]
    exact Grammar.reads_document.again checked
  · cases tree with
    | none =>
        cases refused
        exact List.cons_ne_nil _ _
    | some root =>
        have complains : (check root).Complains := Grammar.reads_document.complains
        simp only [ofTree] at refused
        split at refused
        · contradiction
        · next checked =>
            cases refused
            rintro rfl
            exact complains checked

example : ofTree (some (.object [("note", .null), ("endianness", .string "Big"),
    ("structures", .array [])])) =
      .ok { byteOrder := some .big, constants := none, structures := [] } := by
  rfl

end Document

end Carve
