import Carve.Proofs.Document.Grammar

namespace Carve

namespace Text

theorem digitValue_toLower (char : Char) : digitValue? char.toLower = digitValue? char := by
  have ascii : ∀ code < 128,
      digitValue? (Char.ofNat code).toLower = digitValue? (Char.ofNat code) := by decide
  by_cases small : char.toNat < 128
  · simpa using ascii char.toNat small
  · have other : char.toLower = char := dif_neg fun capital => by
      have upper : char.toNat ≤ 90 := capital.2
      omega
    rw [other]

theorem ofDigits_zeros (base zeros : Nat) (digits : List Nat) :
    ofDigits base (List.replicate zeros 0 ++ digits) = ofDigits base digits := by
  induction zeros with
  | zero => rfl
  | succ zeros ih => simpa [List.replicate_succ, ofDigits] using ih

end Text

namespace Literal

/-- A hex literal with zeros in front of its digits. -/
def hexText (zeros : Nat) (digits : List Char) : String :=
  .ofList ('0' :: 'x' :: (List.replicate zeros '0' ++ digits))

/-- The digits are the same but for their letter case and for zeros in front. -/
inductive Respells : String → String → Prop
  | hex {digits others : List Char} (zeros more : Nat)
      (same : digits.map Char.toLower = others.map Char.toLower) :
      Respells (hexText zeros digits) (hexText more others)

/-- The sign is the same as well, except that zero may have either. -/
inductive RespellsSigned : String → String → Prop
  | plain {literal other : String} (same : Respells literal other) : RespellsSigned literal other
  | minus {literal other : String} (same : Respells literal other) :
      RespellsSigned ("-" ++ literal) ("-" ++ other)
  | gained (zeros more : Nat) : RespellsSigned (hexText zeros []) ("-" ++ hexText more [])
  | lost (zeros more : Nat) : RespellsSigned ("-" ++ hexText zeros []) (hexText more [])

/-- The digits fill as many bytes as well. -/
structure RespellsBytes (literal other : String) : Prop where
  respells : Respells literal other
  bytes : hexByteLength literal = hexByteLength other

variable {literal other : String} {zeros more number otherNumber : Nat} {digits others : List Char}

theorem Spells.eq_ofDigits (spells : Spells (hexText zeros digits) number) :
    number = Text.ofDigits 16 (digits.map fun char => (Text.digitValue? char).getD 0) := by
  obtain ⟨values, read, rfl⟩ := spells_iff.mp spells
  obtain ⟨chars, text, _, _, valued⟩ := hexDigits_eq_some.mp read
  simp only [hexText, String.toList_ofList, List.cons.injEq, true_and] at text
  have each : values = chars.map fun char => (Text.digitValue? char).getD 0 := by
    simpa [List.map_map, Function.comp_def] using
      congrArg (List.map fun value => value.getD 0) valued.symm
  rw [each, ← text, List.map_append, List.map_replicate]
  exact Text.ofDigits_zeros 16 zeros _

/-- What a literal spells depends neither on the case of letters nor on zeros in front. -/
theorem Respells.unique (same : Respells literal other) (spells : Spells literal number)
    (otherSpells : Spells other otherNumber) : number = otherNumber := by
  cases same with
  | @hex digits others zeros more same =>
      have value (chars : List Char) : (chars.map fun char => (Text.digitValue? char).getD 0) =
          (chars.map Char.toLower).map fun char => (Text.digitValue? char).getD 0 := by
        simp only [List.map_map, Function.comp_def, Text.digitValue_toLower]
      rw [spells.eq_ofDigits, otherSpells.eq_ofDigits, value digits, same, ← value others]

theorem Respells.parseHex_exists (same : Respells literal other) (hex : Hex literal)
    (otherHex : Hex other) : ∃ number,
      parseHex literal = .ok number ∧ parseHex other = .ok number := by
  obtain ⟨number, spells⟩ := hex
  obtain ⟨otherNumber, otherSpells⟩ := otherHex
  cases same.unique spells otherSpells
  exact ⟨number, parseHex_eq_ok.mpr spells, parseHex_eq_ok.mpr otherSpells⟩

theorem SpellsSigned.plain_inv {number : Int}
    (spells : SpellsSigned (hexText zeros digits) number) :
    ∃ magnitude : Nat, Spells (hexText zeros digits) magnitude ∧ number = magnitude := by
  generalize written : hexText zeros digits = literal at spells
  cases spells with
  | plain spells => exact ⟨_, spells, rfl⟩
  | minus spells =>
      have chars := congrArg String.toList written
      simp [hexText, String.toList_append] at chars

theorem SpellsSigned.minus_inv {number : Int} (spells : SpellsSigned ("-" ++ literal) number) :
    ∃ magnitude : Nat, Spells literal magnitude ∧ number = -magnitude := by
  generalize written : "-" ++ literal = signed at spells
  cases spells with
  | plain spells =>
      cases spells with
      | hex _ _ _ =>
          have chars := congrArg String.toList written
          simp [String.toList_append] at chars
  | minus spells =>
      have same := congrArg String.toList written
      simp only [String.toList_append, List.append_cancel_left_eq, String.toList_inj] at same
      exact ⟨_, same ▸ spells, rfl⟩

theorem RespellsSigned.unique {number otherNumber : Int} (same : RespellsSigned literal other)
    (spells : SpellsSigned literal number) (otherSpells : SpellsSigned other otherNumber) :
    number = otherNumber := by
  cases same with
  | plain same =>
      cases same with
      | hex zeros more same =>
          obtain ⟨_, digits, rfl⟩ := spells.plain_inv
          obtain ⟨_, others, rfl⟩ := otherSpells.plain_inv
          rw [(Respells.hex zeros more same).unique digits others]
  | minus same =>
      obtain ⟨_, digits, rfl⟩ := spells.minus_inv
      obtain ⟨_, others, rfl⟩ := otherSpells.minus_inv
      rw [same.unique digits others]
  | gained zeros more =>
      obtain ⟨_, digits, rfl⟩ := spells.plain_inv
      obtain ⟨_, others, rfl⟩ := otherSpells.minus_inv
      rw [digits.eq_ofDigits, others.eq_ofDigits]
      rfl
  | lost zeros more =>
      obtain ⟨_, digits, rfl⟩ := spells.minus_inv
      obtain ⟨_, others, rfl⟩ := otherSpells.plain_inv
      rw [digits.eq_ofDigits, others.eq_ofDigits]
      rfl

theorem RespellsSigned.parseSignedHex_exists (same : RespellsSigned literal other)
    (hex : SignedHex literal) (otherHex : SignedHex other) : ∃ number,
      parseSignedHex literal = .ok number ∧ parseSignedHex other = .ok number := by
  obtain ⟨number, spells⟩ := hex
  obtain ⟨otherNumber, otherSpells⟩ := otherHex
  cases same.unique spells otherSpells
  exact ⟨number, parseSignedHex_eq_ok.mpr spells, parseSignedHex_eq_ok.mpr otherSpells⟩

end Literal

inductive Size.Respells : Size String → Size String → Prop
  | literal {value other : String} (same : Literal.Respells value other) :
      Respells (.literal value) (.literal other)
  | reference (reference : Reference) : Respells (.reference reference) (.reference reference)

inductive Content.Respells : Content String → Content String → Prop
  | primitive (type : Primitive) : Respells (.primitive type) (.primitive type)
  | buffer {size other : Size String} (same : size.Respells other) :
      Respells (.buffer size) (.buffer other)
  | text {size other : Size String} (same : size.Respells other) :
      Respells (.text size) (.text other)

structure Field.Respells (field other : Field String) : Prop where
  name : field.name = other.name
  content : field.content.Respells other.content
  align : Option.Rel Literal.Respells field.align other.align
  offset : Option.Rel Literal.RespellsSigned field.offset other.offset

inductive Anchor.Respells : Anchor String → Anchor String → Prop
  | offset {literal other : String} (same : Literal.Respells literal other) :
      Respells (.offset literal) (.offset other)
  | streamStart : Respells .streamStart .streamStart
  | streamEnd : Respells .streamEnd .streamEnd

inductive Hint.Respells : Hint String → Hint String → Prop
  | skip {literal other : String} (same : Literal.Respells literal other) :
      Respells (.skip literal) (.skip other)
  | near {anchor other : Anchor String} (same : anchor.Respells other) :
      Respells (.near anchor) (.near other)

inductive SignatureSource.Respells : SignatureSource → SignatureSource → Prop
  | literal {value other : String} (same : Literal.RespellsBytes value other) :
      Respells (.literal value) (.literal other)
  | constant (name : String) : Respells (.constant name) (.constant name)

structure Constant.Respells (constant other : Constant) : Prop where
  name : constant.name = other.name
  type : constant.type = other.type
  value : Literal.Respells constant.value other.value

structure Declaration.Respells (declaration other : Declaration) : Prop where
  name : declaration.name = other.name
  signature : declaration.signature.Respells other.signature
  byteOrder : declaration.byteOrder = other.byteOrder
  hint : Option.Rel Hint.Respells declaration.hint other.hint
  fields : List.Forall₂ Field.Respells declaration.fields other.fields

/-- The documents differ in nothing but the spelling of their literals. -/
structure Document.Respells (document other : Document) : Prop where
  byteOrder : document.byteOrder = other.byteOrder
  constants : Option.Rel (List.Forall₂ Constant.Respells) document.constants other.constants
  structures : List.Forall₂ Declaration.Respells document.structures other.structures

end Carve
