import Carve.Proofs.Literal
import Mathlib.Data.List.Forall2
import Mathlib.Data.Nat.Digits.Lemmas
import Mathlib.Order.Bounds.Basic

namespace Carve

namespace Text

/-- The hex digits in the order of their values, with small letters and with capitals. -/
def smallDigits : List Char :=
  ['0', '1', '2', '3', '4', '5', '6', '7', '8', '9', 'a', 'b', 'c', 'd', 'e', 'f']

def capitalDigits : List Char :=
  ['0', '1', '2', '3', '4', '5', '6', '7', '8', '9', 'A', 'B', 'C', 'D', 'E', 'F']

/-- The character is the hex digit of this value, in either letter case. -/
def IsHexDigit (char : Char) (value : Nat) : Prop :=
  smallDigits[value]? = some char ∨ capitalDigits[value]? = some char

instance (char : Char) (value : Nat) : Decidable (IsHexDigit char value) :=
  inferInstanceAs (Decidable (_ ∨ _))

variable {char : Char} {value : Nat} {chars : List Char} {digits : List Nat}

theorem digitValue_ascii (valued : digitValue? char = some value) : char.toNat < 128 := by
  by_contra outside
  have above (bound : Char) (low : bound.toNat < 128) : ¬ char ≤ bound := by
    intro within
    have ordered : char.toNat ≤ bound.toNat := within
    omega
  simp [digitValue?, above '9' (by decide), above 'f' (by decide), above 'F' (by decide)] at valued

/-- The digits with a value are those of the two rows, at the place of their value. -/
theorem digitValue_eq_some : digitValue? char = some value ↔ IsHexDigit char value := by
  constructor
  · intro valued
    have ascii : ∀ code < 128, ∀ value ∈ digitValue? (Char.ofNat code),
        IsHexDigit (Char.ofNat code) value := by decide
    have known := ascii char.toNat (digitValue_ascii valued) value
    rw [Char.ofNat_toNat] at known
    exact known valued
  · intro digit
    have small : ∀ place : Fin smallDigits.length,
        digitValue? smallDigits[place] = some place.val := by decide
    have capital : ∀ place : Fin capitalDigits.length,
        digitValue? capitalDigits[place] = some place.val := by decide
    rcases digit with inSmall | inCapital
    · obtain ⟨bound, rfl⟩ := List.getElem?_eq_some_iff.mp inSmall
      exact small ⟨value, bound⟩
    · obtain ⟨bound, rfl⟩ := List.getElem?_eq_some_iff.mp inCapital
      exact capital ⟨value, bound⟩

theorem map_digitValue_iff :
    chars.map digitValue? = digits.map some ↔ List.Forall₂ IsHexDigit chars digits := by
  rw [← List.forall₂_eq_eq_eq, List.forall₂_map_left_iff, List.forall₂_map_right_iff]
  simp only [digitValue_eq_some]

theorem hexChars_exist (below : ∀ digit ∈ digits, digit < 16) :
    ∃ chars, List.Forall₂ IsHexDigit chars digits := by
  induction digits with
  | nil => exact ⟨[], .nil⟩
  | cons digit rest ih =>
      obtain ⟨small, others⟩ := List.forall_mem_cons.mp below
      obtain ⟨chars, spelled⟩ := ih others
      have inside : smallDigits[digit]? = some smallDigits[digit] := List.getElem?_eq_getElem small
      exact ⟨smallDigits[digit] :: chars, .cons (.inl inside) spelled⟩

/-- Digits are read as their sum, each at its place from the end. -/
theorem ofDigits_eq (base : Nat) (digits : List Nat) :
    ofDigits base digits = Nat.ofDigits base digits.reverse := by
  rw [Nat.ofDigits_eq_foldr, List.foldr_reverse, ofDigits]
  simp only [Nat.cast_id, Nat.add_comm]

end Text

namespace Literal

/-- The text is `0x` with one to 32 hex digits behind it, each of either letter case, and these are
their values. -/
inductive Written : String → List Nat → Prop
  | hex {chars : List Char} {digits : List Nat} (nonempty : 1 ≤ chars.length)
      (bounded : chars.length ≤ 32) (each : List.Forall₂ Text.IsHexDigit chars digits) :
      Written ("0x" ++ String.ofList chars) digits

variable {literal : String} {digits : List Nat} {number count width : Nat}

theorem written_iff : Written literal digits ↔ hexDigits? literal.toList = some digits := by
  rw [hexDigits_eq_some]
  constructor
  · rintro ⟨nonempty, bounded, each⟩
    exact ⟨_, by simp [String.toList_append], nonempty, bounded, Text.map_digitValue_iff.mpr each⟩
  · rintro ⟨chars, text, nonempty, bounded, valued⟩
    have prefixed : literal = "0x" ++ String.ofList chars :=
      String.toList_inj.mp (by simp [text, String.toList_append])
    rw [prefixed]
    exact .hex nonempty bounded (Text.map_digitValue_iff.mp valued)

theorem written_exists (nonempty : 1 ≤ digits.length) (bounded : digits.length ≤ 32)
    (below : ∀ digit ∈ digits, digit < 16) : ∃ literal, Written literal digits := by
  obtain ⟨chars, each⟩ := Text.hexChars_exist below
  have lengths := each.length_eq
  exact ⟨_, .hex (by omega) (by omega) each⟩

theorem parseHex_written :
    parseHex literal = .ok number ↔
      ∃ digits, Written literal digits ∧ number = Nat.ofDigits 16 digits.reverse := by
  simp only [parseHex_eq_ok, spells_iff, written_iff, Text.ofDigits_eq]

theorem parseSignedHex_minus {number : Int} : parseSignedHex literal = .ok number ↔
    (∃ magnitude : Nat, parseHex literal = .ok magnitude ∧ number = magnitude) ∨
      ∃ unsigned, ∃ magnitude : Nat, literal = "-" ++ unsigned ∧
        parseHex unsigned = .ok magnitude ∧ number = -magnitude := by
  simp only [parseSignedHex_eq_ok, parseHex_eq_ok]
  constructor
  · rintro (⟨spells⟩ | ⟨spells⟩)
    · exact .inl ⟨_, spells, rfl⟩
    · exact .inr ⟨_, _, rfl, spells, rfl⟩
  · rintro (⟨magnitude, spells, rfl⟩ | ⟨unsigned, magnitude, rfl, spells, rfl⟩)
    · exact .plain spells
    · exact .minus spells

/-- Two digits to a byte, and one more byte if a digit is left over. -/
theorem hexByteLength_written : hexByteLength literal = .ok width ↔
    ∃ digits, Written literal digits ∧ IsLeast {bytes | digits.length ≤ 2 * bytes} width := by
  have least (digits : List Nat) :
      IsLeast {bytes | digits.length ≤ 2 * bytes} ((digits.length + 1) / 2) := by
    refine ⟨show digits.length ≤ 2 * ((digits.length + 1) / 2) by omega, fun bytes room => ?_⟩
    have enough : digits.length ≤ 2 * bytes := room
    omega
  simp only [written_iff, hexByteLength]
  cases hexDigits? literal.toList with
  | none => simp
  | some digits =>
      simp only [Except.ok.injEq, Option.some.injEq, exists_eq_left']
      exact ⟨fun same => same ▸ least digits, fun other => (least digits).unique other⟩

theorem lt_of_parseHex (parsed : parseHex literal = .ok number)
    (measured : hexByteLength literal = .ok width) : number < 256 ^ width := by
  obtain ⟨bytes, same, room⟩ := (parseHex_eq_ok.mp parsed).hexByteLength_exists
  cases measured.symm.trans same
  rwa [Nat.pow_mul] at room

theorem exists_hexByteLength :
    (∃ width, hexByteLength literal = .ok width) ↔ ∃ number, parseHex literal = .ok number := by
  rw [hexByteLength, parseHex]
  cases hexDigits? literal.toList <;> simp

/-- A number is read from its digits, whatever zeros are in front of them. -/
theorem parseHex_digitsAppend
    (written : Written literal (Nat.digitsAppend 16 count number).reverse) :
    parseHex literal = .ok number := by
  refine parseHex_written.mpr ⟨_, written, ?_⟩
  rw [List.reverse_reverse, Nat.digitsAppend, Nat.ofDigits_append_replicate_zero,
    Nat.ofDigits_digits]

theorem written_digitsAppend (nonempty : 1 ≤ count) (bounded : count ≤ 32)
    (room : number < 16 ^ count) :
    ∃ literal, Written literal (Nat.digitsAppend 16 count number).reverse := by
  have length : (Nat.digitsAppend 16 count number).reverse.length = count := by
    rw [List.length_reverse, Nat.length_digitsAppend (by decide) count room]
  refine written_exists (by omega) (by omega) fun digit member => ?_
  exact Nat.lt_of_mem_digitsAppend (by decide) count digit (List.mem_reverse.mp member)

theorem Error.literal_of_parseHex {error : Error} (failed : parseHex literal = .error error) :
    error.literal = literal := by
  unfold parseHex at failed
  split at failed <;> cases failed
  rfl

theorem Error.literal_of_parseSignedHex {error : Error}
    (failed : parseSignedHex literal = .error error) : error.literal = literal := by
  unfold parseSignedHex at failed
  split at failed <;> cases failed
  rfl

theorem Error.literal_of_hexByteLength {error : Error}
    (failed : hexByteLength literal = .error error) : error.literal = literal := by
  unfold hexByteLength at failed
  split at failed <;> cases failed
  rfl

theorem toSafeOffset_eq (value : Int) (literal : String) : toSafeOffset value literal =
    if -(2 ^ 53 - 1) ≤ value ∧ value ≤ 2 ^ 53 - 1 then .ok value
    else .error (.unsafeOffset literal) := by
  rw [toSafeOffset, Number.maxSafe]
  congr 1
  exact propext (by omega)

/-- Literals are read exactly as their grammar says, with the value that their digits have at their
places, and measured in the least number of bytes that the digits fit in.  A literal that cannot be
read is named by the error.  Every number of 128 bits is read from each of its spellings, and an
offset is taken as it is within the safe range and refused outside. -/
theorem parseHex_reads_grammar :
    (∀ literal number, parseHex literal = .ok number ↔
      ∃ digits, Written literal digits ∧ number = Nat.ofDigits 16 digits.reverse) ∧
    (∀ literal (number : Int), parseSignedHex literal = .ok number ↔
      (∃ magnitude : Nat, parseHex literal = .ok magnitude ∧ number = magnitude) ∨
        ∃ unsigned, ∃ magnitude : Nat, literal = "-" ++ unsigned ∧
          parseHex unsigned = .ok magnitude ∧ number = -magnitude) ∧
    (∀ literal, (∃ width, hexByteLength literal = .ok width) ↔
      ∃ number, parseHex literal = .ok number) ∧
    (∀ literal width, hexByteLength literal = .ok width ↔
      ∃ digits, Written literal digits ∧ IsLeast {bytes | digits.length ≤ 2 * bytes} width) ∧
    (∀ literal number width, parseHex literal = .ok number → hexByteLength literal = .ok width →
      number < 256 ^ width) ∧
    (∀ literal error, parseHex literal = .error error ∨ parseSignedHex literal = .error error ∨
      hexByteLength literal = .error error → error.literal = literal) ∧
    (∀ number < 2 ^ 128,
      (∃ literal, Written literal (Nat.digitsAppend 16 32 number).reverse) ∧
      ∀ count literal, Written literal (Nat.digitsAppend 16 count number).reverse →
        parseHex literal = .ok number) ∧
    ∀ value literal, toSafeOffset value literal =
      if -(2 ^ 53 - 1) ≤ value ∧ value ≤ 2 ^ 53 - 1 then .ok value
      else .error (.unsafeOffset literal) := by
  refine ⟨fun literal number => parseHex_written, fun literal number => parseSignedHex_minus,
    fun literal => exists_hexByteLength, fun literal width => hexByteLength_written,
    fun literal number width => lt_of_parseHex, fun literal error failed => ?_,
    fun number small => ⟨?_, fun count literal => parseHex_digitsAppend⟩, toSafeOffset_eq⟩
  · rcases failed with unread | unread | unmeasured
    · exact Error.literal_of_parseHex unread
    · exact Error.literal_of_parseSignedHex unread
    · exact Error.literal_of_hexByteLength unmeasured
  · have room : (2 : Nat) ^ 128 = 16 ^ 32 := by decide
    exact written_digitsAppend (by decide) (by decide) (room ▸ small)

/-- Digits of both letter cases, a sign, a digit left over, a line end behind the digits, and an
offset just outside the safe range. -/
theorem parseHex_reads_grammar_sample :
    parseHex "0x0aBcd" = .ok 0xabcd ∧ parseSignedHex "-0x0aBcd" = .ok (-0xabcd) ∧
      hexByteLength "0x0aBcd" = .ok 3 ∧ 0xabcd < 256 ^ 3 ∧
      (∃ error, parseHex "0x1\n" = .error error ∧ error.literal = "0x1\n") ∧
      toSafeOffset (2 ^ 53) "0x20000000000000" = .error (.unsafeOffset "0x20000000000000") := by
  obtain ⟨_, signed, _, measured, bounded, named, spelled, safe⟩ := parseHex_reads_grammar
  have digits : (Nat.digitsAppend 16 5 0xabcd).reverse = [0, 10, 11, 12, 13] := by
    norm_num [Nat.digitsAppend]
  have written : Written "0x0aBcd" [0, 10, 11, 12, 13] :=
    @Written.hex ['0', 'a', 'B', 'c', 'd'] _ (by decide) (by decide) (by decide)
  have parsed := (spelled 0xabcd (by decide)).2 5 _ (digits ▸ written)
  have minus := (signed "-0x0aBcd" (-0xabcd)).mpr (.inr ⟨"0x0aBcd", 0xabcd, rfl, parsed, rfl⟩)
  have least : IsLeast {bytes | 5 ≤ 2 * bytes} 3 :=
    ⟨show 5 ≤ 2 * 3 by decide, fun bytes room => by have : 5 ≤ 2 * bytes := room; omega⟩
  have bytes := (measured "0x0aBcd" 3).mpr ⟨_, written, least⟩
  exact ⟨parsed, minus, bytes, bounded _ _ _ parsed bytes, ⟨_, rfl, named "0x1\n" _ (.inl rfl)⟩,
    (safe (2 ^ 53) _).trans (if_neg (by decide))⟩

end Literal

end Carve
