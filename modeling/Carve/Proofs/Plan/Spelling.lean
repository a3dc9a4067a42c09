import Carve.Proofs.Plan.Signature
import Carve.Proofs.Reencoding

namespace Carve

namespace Text

variable {base count number digit : Nat} {digits : List Nat}

/-- The number read so far is moved up by every digit behind it. -/
theorem foldl_digits (base value : Nat) (digits : List Nat) :
    digits.foldl (fun value digit => base * value + digit) value =
      value * base ^ digits.length + ofDigits base digits := by
  induction digits generalizing value with
  | nil => simp [ofDigits]
  | cons digit rest ih =>
      have first : ofDigits base (digit :: rest) =
          digit * base ^ rest.length + ofDigits base rest := by
        simpa [ofDigits] using ih digit
      rw [List.foldl_cons, ih, first, List.length_cons, Nat.pow_succ', Nat.add_mul, Nat.add_assoc,
        ← Nat.mul_assoc, Nat.mul_comm base]

theorem ofDigits_cons (base digit : Nat) (rest : List Nat) :
    ofDigits base (digit :: rest) = digit * base ^ rest.length + ofDigits base rest := by
  simpa [ofDigits] using foldl_digits base digit rest

/-- The bytes that pairs of hex digits spell, in the order in which they are written. -/
def pairBytes : List Nat → List UInt8
  | high :: low :: rest => UInt8.ofNat (16 * high + low) :: pairBytes rest
  | [] | [_] => []

/-- The bytes that hex digits spell, in the order in which they are written.  An odd number of
digits has a zero in front. -/
def spelledBytes (digits : List Nat) : List UInt8 :=
  if digits.length % 2 = 0 then pairBytes digits else pairBytes (0 :: digits)

theorem length_pairBytes (digits : List Nat) : (pairBytes digits).length = digits.length / 2 := by
  fun_induction pairBytes digits with
  | case1 high low rest ih =>
      simp only [List.length_cons, ih]
      omega
  | case2 => rfl
  | case3 digit => simp

theorem value_pairBytes (below : ∀ digit ∈ digits, digit < 16) (even : digits.length % 2 = 0) :
    ByteOrder.big.value (pairBytes digits) = ofDigits 16 digits := by
  fun_induction pairBytes digits with
  | case1 high low rest ih =>
      obtain ⟨highBelow, lowBelow, others⟩ := by simpa using below
      simp only [List.length_cons] at even
      have evenRest : rest.length % 2 = 0 := by omega
      have byte : ByteOrder.big.value [UInt8.ofNat (16 * high + low)] = 16 * high + low := by
        simp [ByteOrder.value, ByteOrder.arrange, ByteOrder.lowFirst, UInt8.toNat_ofNat']
        omega
      have pairs : 256 ^ (rest.length / 2) = 16 ^ rest.length := by
        rw [show (256 : Nat) = 16 ^ 2 from rfl, ← Nat.pow_mul]
        congr 1
        omega
      rw [← List.singleton_append, ByteOrder.big_value_append, byte, ih others evenRest,
        length_pairBytes, pairs, ofDigits_cons, ofDigits_cons, List.length_cons, Nat.pow_succ]
      grind
  | case2 => rfl
  | case3 digit => simp at even

theorem value_spelledBytes (below : ∀ digit ∈ digits, digit < 16) :
    ByteOrder.big.value (spelledBytes digits) = ofDigits 16 digits ∧
      (spelledBytes digits).length = (digits.length + 1) / 2 := by
  unfold spelledBytes
  by_cases even : digits.length % 2 = 0
  · rw [if_pos even, length_pairBytes]
    exact ⟨value_pairBytes below even, by omega⟩
  · have evenPadded : (0 :: digits).length % 2 = 0 := by
      rw [List.length_cons]
      omega
    have belowPadded : ∀ digit ∈ 0 :: digits, digit < 16 := by simpa using below
    rw [if_neg even, length_pairBytes, value_pairBytes belowPadded evenPadded, ofDigits_cons,
      Nat.zero_mul, Nat.zero_add, List.length_cons]
    exact ⟨rfl, rfl⟩

/-- The number is written with so many digits, zeros in front if it is small. -/
theorem digits_exist (room : number < base ^ count) : ∃ digits : List Nat,
    digits.length = count ∧ (∀ digit ∈ digits, digit < base) ∧ ofDigits base digits = number := by
  induction count generalizing number with
  | zero => exact ⟨[], rfl, by simp, by simpa [ofDigits, eq_comm] using room⟩
  | succ count ih =>
      rw [Nat.pow_succ] at room
      have positive : 0 < base ^ count := by
        by_contra none
        simp [Nat.eq_zero_of_not_pos none] at room
      obtain ⟨rest, length, below, spelled⟩ := ih (Nat.mod_lt number positive)
      refine ⟨number / base ^ count :: rest, by rw [List.length_cons, length], ?_, ?_⟩
      · have head : number / base ^ count < base := Nat.div_lt_of_lt_mul room
        simpa [head] using below
      · rw [ofDigits_cons, length, spelled, Nat.mul_comm]
        exact Nat.div_add_mod number (base ^ count)

theorem digitValue_digitChar (small : digit < 16) :
    digitValue? (Nat.digitChar digit) = some digit := by
  have each : ∀ digit < 16, digitValue? (Nat.digitChar digit) = some digit := by decide
  exact each digit small

theorem map_digitChar (below : ∀ digit ∈ digits, digit < 16) :
    (digits.map Nat.digitChar).map digitValue? = digits.map some := by
  rw [List.map_map]
  exact List.map_congr_left fun digit member => digitValue_digitChar (below digit member)

end Text

/-- A number is written in bytes as its digits spell them. -/
theorem ByteOrder.big_spell_ofDigits {digits : List Nat} (below : ∀ digit ∈ digits, digit < 16) :
    big.spell ((digits.length + 1) / 2) (Text.ofDigits 16 digits) = Text.spelledBytes digits := by
  obtain ⟨value, length⟩ := Text.value_spelledBytes below
  rw [← value, ← length]
  exact big.spell_value _

namespace Literal

/-- The text is `0x` with one to 32 hex digits of either case, which have these values. -/
inductive HasDigits : String → List Nat → Prop
  | hex {chars : List Char} {digits : List Nat} (nonempty : 1 ≤ chars.length)
      (bounded : chars.length ≤ maxDigits) (valued : chars.map Text.digitValue? = digits.map some) :
      HasDigits (String.ofList ('0' :: 'x' :: chars)) digits

/-- The literal spells the number with so many digits. -/
def SpellsIn (literal : String) (count number : Nat) : Prop :=
  ∃ digits, HasDigits literal digits ∧ digits.length = count ∧ Text.ofDigits 16 digits = number

variable {literal : String} {digits : List Nat} {count number : Nat}

theorem HasDigits.read (spelled : HasDigits literal digits) :
    hexDigits? literal.toList = some digits := by
  cases spelled with
  | hex nonempty bounded valued =>
      exact hexDigits_eq_some.mpr ⟨_, String.toList_ofList, nonempty, bounded, valued⟩

theorem HasDigits.below (spelled : HasDigits literal digits) : ∀ digit ∈ digits, digit < 16 := by
  cases spelled with
  | hex nonempty bounded valued => exact Text.digits_lt valued

theorem spellsIn_exists (nonempty : 1 ≤ count) (bounded : count ≤ maxDigits)
    (room : number < 16 ^ count) : ∃ literal, SpellsIn literal count number := by
  obtain ⟨digits, length, below, spelled⟩ := Text.digits_exist room
  have lengths : (digits.map Nat.digitChar).length = count := by rw [List.length_map, length]
  exact ⟨_, digits, .hex (by omega) (by omega) (Text.map_digitChar below), length, spelled⟩

end Literal

namespace Plan

variable {constants : Constants} {structureName : String} {source : SignatureSource}
  {width number : Nat}

theorem compileSignature_of_spelled
    (spelled : spelledSignature constants structureName source = .ok (width, number))
    (order : ByteOrder) : compileSignature constants structureName order source =
      .ok (order.spell width number).toArray := by
  have fits := spelledSignature_fits spelled
  have bound := Integer.fits_natCast.mp fits
  have pattern : (number : Int) % (2 ^ (8 * width) : Nat) = number :=
    Int.emod_eq_of_lt (Int.natCast_nonneg _) (by exact_mod_cast bound)
  simp only [compileSignature, spelled, Integer.encode_eq_spell fits pattern]
  rfl

theorem spelledSignature_literal {literal : String} {digits : List Nat}
    (written : Literal.HasDigits literal digits) :
    spelledSignature constants structureName (.literal literal) =
      .ok ((digits.length + 1) / 2, Text.ofDigits 16 digits) := by
  simp only [spelledSignature, Literal.parseHex, Literal.hexByteLength, written.read]

theorem spelledSignature_spellsIn {literal : String}
    (written : Literal.SpellsIn literal (2 * width) number) :
    spelledSignature constants structureName (.literal literal) = .ok (width, number) := by
  obtain ⟨digits, written, length, rfl⟩ := written
  have half : (digits.length + 1) / 2 = width := by omega
  rw [spelledSignature_literal written, half]

theorem spelledSignature_constant {name : String}
    (found : constants.find? name = some (width, number)) :
    spelledSignature constants structureName (.constant name) =
      if number < 2 ^ (8 * width) then .ok (width, number)
      else .error (.refused (.declaration structureName (.constantTooWide name width))) := by
  simp only [spelledSignature, found, Integer.fits_natCast]

theorem compileSignature_literal {literal : String} {digits : List Nat}
    (written : Literal.HasDigits literal digits) :
    compileSignature constants structureName .big (.literal literal) =
        .ok (Text.spelledBytes digits).toArray ∧
      compileSignature constants structureName .little (.literal literal) =
        .ok (Text.spelledBytes digits).reverse.toArray := by
  have big := ByteOrder.big_spell_ofDigits written.below
  have little : ByteOrder.little.spell ((digits.length + 1) / 2) (Text.ofDigits 16 digits) =
      (Text.spelledBytes digits).reverse := by
    rw [← big]
    exact ByteOrder.big.spell_opposite _ _
  have spelled : spelledSignature constants structureName (.literal literal) = _ :=
    spelledSignature_literal written
  rw [← little, ← big]
  exact ⟨compileSignature_of_spelled spelled .big, compileSignature_of_spelled spelled .little⟩

theorem compileSignature_tooWide {name : String}
    (found : constants.find? name = some (width, number)) (large : 2 ^ (8 * width) ≤ number)
    (order : ByteOrder) : compileSignature constants structureName order (.constant name) =
      .error (.refused (.declaration structureName (.constantTooWide name width))) := by
  rw [compileSignature, spelledSignature_constant found, if_neg (Nat.not_lt.mpr large)]

/-- A literal stands for the bytes that its digits spell, a constant for those of the literal with
two digits for every byte of its type.  A constant without room in these bytes stands for none. -/
theorem compileSignature_spells {declared : List Constant}
    (collected : collectConstants declared .empty = .ok constants) (structureName : String) :
    let compile := compileSignature constants structureName
    (∀ literal digits, Literal.HasDigits literal digits →
      compile .big (.literal literal) = .ok (Text.spelledBytes digits).toArray ∧
      compile .little (.literal literal) = .ok (Text.spelledBytes digits).reverse.toArray) ∧
    (∀ constant ∈ declared, ∃ number, Literal.Spells constant.value number ∧
      let width := constant.type.width.bytes
      (number < 2 ^ (8 * width) →
        (∃ literal, Literal.SpellsIn literal (2 * width) number) ∧
        ∀ literal, Literal.SpellsIn literal (2 * width) number → ∀ order,
          compile order (.constant constant.name) = compile order (.literal literal)) ∧
      (2 ^ (8 * width) ≤ number → ∀ order, ∃ error,
        compile order (.constant constant.name) = .error (.refused error) ∧
        error.code = .invalidSignature ∧ error.structureName? = some structureName)) ∧
    ∀ order source bytes, compile order source = .ok bytes → 1 ≤ bytes.size ∧ bytes.size ≤ 16 := by
  intro compile
  refine ⟨fun literal digits written => compileSignature_literal written,
    fun constant member => ?_, fun order source bytes compiled =>
      compileSignature_size (constants_wellFormed collected) compiled⟩
  obtain ⟨number, spells, found⟩ := (constants_list collected).values constant member
  refine ⟨number, spells, fun room => ⟨?_, fun literal written order => ?_⟩, fun large order =>
    ⟨_, compileSignature_tooWide found large order, rfl, rfl⟩⟩
  · have positive := constant.type.width.bytes_pos
    have bounded := constant.type.width.bytes_le
    have pairs : 16 ^ (2 * constant.type.width.bytes) = 2 ^ (8 * constant.type.width.bytes) := by
      rw [Nat.pow_mul, Nat.pow_mul]
    exact Literal.spellsIn_exists (by omega) (by rw [Literal.maxDigits]; omega) (by rwa [pairs])
  · have spelled : spelledSignature constants structureName (.constant constant.name) = _ :=
      spelledSignature_constant found
    rw [if_pos room] at spelled
    exact (compileSignature_of_spelled spelled order).trans
      (compileSignature_of_spelled (spelledSignature_spellsIn written) order).symm

/-- One of the constants has room in the bytes of its type, and the other has not. -/
def sampleConstants : List Constant :=
  [{ name := "magic", type := ⟨true, .two⟩, value := "0xAbC" },
    { name := "wide", type := ⟨false, .one⟩, value := "0x100" }]

/-- Five digits spell three bytes with a zero in front of the first of them, and a constant of two
bytes those of its number with four digits. -/
theorem compileSignature_spells_sample : ∃ constants,
    collectConstants sampleConstants .empty = .ok constants ∧
    compileSignature constants "block" .big (.literal "0x0aBcd") = .ok #[0x00, 0xab, 0xcd] ∧
    compileSignature constants "block" .little (.literal "0x0aBcd") = .ok #[0xcd, 0xab, 0x00] ∧
    (∀ order, compileSignature constants "block" order (.constant "magic") =
      compileSignature constants "block" order (.literal "0x0abc")) ∧
    ∃ error, compileSignature constants "block" .big (.constant "wide") = .error (.refused error) ∧
      error.code = .invalidSignature := by
  have odd : Literal.HasDigits "0x0aBcd" [0, 10, 11, 12, 13] :=
    @Literal.HasDigits.hex ['0', 'a', 'B', 'c', 'd'] _ (by decide) (by decide) (by decide)
  have even : Literal.SpellsIn "0x0abc" 4 0xabc :=
    ⟨[0, 10, 11, 12],
      @Literal.HasDigits.hex ['0', 'a', 'b', 'c'] _ (by decide) (by decide) (by decide), rfl, rfl⟩
  have magic : Literal.Spells "0xAbC" 0xabc := Literal.parseHex_eq_ok.mp rfl
  have wide : Literal.Spells "0x100" 0x100 := Literal.parseHex_eq_ok.mp rfl
  have collected : collectConstants sampleConstants .empty = .ok _ := rfl
  obtain ⟨literals, declared, _⟩ := compileSignature_spells collected "block"
  obtain ⟨big, little⟩ := literals _ _ odd
  obtain ⟨number, spells, fits, _⟩ := declared _ (.head _)
  obtain ⟨large, spellsLarge, _, refused⟩ := declared _ (.tail _ (.head _))
  cases spells.unique magic
  cases spellsLarge.unique wide
  obtain ⟨error, failed, code, _⟩ := refused (by decide) .big
  exact ⟨_, collected, big, little, (fits (by decide)).2 _ even, error, failed, code⟩

end Plan

end Carve
