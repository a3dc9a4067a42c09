import Carve.Literal

namespace Carve

namespace Text

theorem digitValue_lt {char : Char} {digit : Nat} (valued : digitValue? char = some digit) :
    digit < 16 := by
  unfold digitValue? at valued
  split at valued
  · next decimal =>
      have upper : char.toNat ≤ 57 := Char.le_def.mp decimal.2
      cases valued
      omega
  · split at valued
    · next small =>
        have upper : char.toNat ≤ 102 := Char.le_def.mp small.2
        cases valued
        omega
    · split at valued
      · next capital =>
          have upper : char.toNat ≤ 70 := Char.le_def.mp capital.2
          cases valued
          omega
      · contradiction

theorem digitValues_below {base : Nat} {chars : List Char} {digits : List Nat} :
    digitValues? base chars = some digits ↔
      chars.map digitValue? = digits.map some ∧ ∀ digit ∈ digits, digit < base := by
  induction chars generalizing digits with
  | nil => cases digits <;> simp [digitValues?]
  | cons char rest ih =>
      simp only [digitValues?] at ih
      simp only [digitValues?, List.mapM_cons, Option.bind_eq_bind, Option.bind_eq_some_iff,
        Option.filter_eq_some_iff, ih, List.map_cons]
      cases digits with
      | nil => simp
      | cons digit more => simpa using and_and_and_comm

theorem digits_lt {chars : List Char} {digits : List Nat}
    (valued : chars.map digitValue? = digits.map some) : ∀ digit ∈ digits, digit < 16 := by
  intro digit member
  have there : some digit ∈ chars.map digitValue? := valued ▸ List.mem_map_of_mem member
  obtain ⟨char, _, value⟩ := List.mem_map.mp there
  exact digitValue_lt value

theorem digitValues_eq_some {chars : List Char} {digits : List Nat} :
    digitValues? 16 chars = some digits ↔ chars.map digitValue? = digits.map some :=
  digitValues_below.trans (and_iff_left_of_imp digits_lt)

theorem ofDigits_lt {base : Nat} {digits : List Nat} (below : ∀ digit ∈ digits, digit < base) :
    ofDigits base digits < base ^ digits.length := by
  suffices bound : ∀ value, digits.foldl (fun value digit => base * value + digit) value <
      (value + 1) * base ^ digits.length by
    simpa [ofDigits] using bound 0
  induction digits with
  | nil => simp
  | cons digit rest ih =>
      intro value
      have head := below digit (by simp)
      calc rest.foldl (fun value digit => base * value + digit) (base * value + digit)
          < (base * value + digit + 1) * base ^ rest.length :=
            ih (fun other member => below other (by simp [member])) _
        _ ≤ (base * (value + 1)) * base ^ rest.length :=
            Nat.mul_le_mul_right _ (by rw [Nat.mul_succ]; omega)
        _ = (value + 1) * base ^ (rest.length + 1) := by
            rw [Nat.pow_succ, Nat.mul_comm base, Nat.mul_assoc, Nat.mul_comm base]

end Text

namespace Literal

/-- The text is `0x` with one to 32 hex digits of either case, which spell the number. -/
inductive Spells : String → Nat → Prop
  | hex {chars : List Char} {digits : List Nat} (nonempty : 1 ≤ chars.length)
      (bounded : chars.length ≤ maxDigits) (valued : chars.map Text.digitValue? = digits.map some) :
      Spells (String.ofList ('0' :: 'x' :: chars)) (Text.ofDigits 16 digits)

/-- The text is a hex literal, or one behind a minus sign, with the number it spells. -/
inductive SpellsSigned : String → Int → Prop
  | plain {literal : String} {number : Nat} (spells : Spells literal number) :
      SpellsSigned literal number
  | minus {literal : String} {number : Nat} (spells : Spells literal number) :
      SpellsSigned ("-" ++ literal) (-number)

variable {literal : String} {number width : Nat}

theorem hexDigits_eq_some {text : List Char} {digits : List Nat} :
    hexDigits? text = some digits ↔ ∃ chars, text = '0' :: 'x' :: chars ∧ 1 ≤ chars.length ∧
      chars.length ≤ maxDigits ∧ chars.map Text.digitValue? = digits.map some := by
  unfold hexDigits?
  split
  · next chars =>
      split
      · next bounds => simp [Text.digitValues_eq_some, bounds]
      · next outside =>
          refine ⟨nofun, ?_⟩
          intro spells
          obtain ⟨_, ⟨⟩, nonempty, bounded, _⟩ := spells
          exact absurd ⟨nonempty, bounded⟩ outside
  · next other =>
      refine ⟨nofun, ?_⟩
      intro spells
      obtain ⟨chars, same, _⟩ := spells
      exact absurd same (other chars)

theorem spells_iff : Spells literal number ↔ ∃ digits, hexDigits? literal.toList = some digits ∧
    number = Text.ofDigits 16 digits := by
  constructor
  · intro spells
    cases spells with
    | hex nonempty bounded valued =>
        exact ⟨_, hexDigits_eq_some.mpr ⟨_, String.toList_ofList, nonempty, bounded, valued⟩, rfl⟩
  · intro known
    obtain ⟨digits, read, rfl⟩ := known
    obtain ⟨chars, text, nonempty, bounded, valued⟩ := hexDigits_eq_some.mp read
    rw [← String.ofList_toList (s := literal), text]
    exact .hex nonempty bounded valued

theorem parseHex_eq_ok : parseHex literal = .ok number ↔ Spells literal number := by
  rw [spells_iff, parseHex]
  cases hexDigits? literal.toList <;> simp [eq_comm]

theorem signedHexDigits_of_hexDigits {text : List Char} {digits : List Nat}
    (read : hexDigits? text = some digits) : signedHexDigits? text = some (false, digits) := by
  obtain ⟨chars, rfl, _⟩ := hexDigits_eq_some.mp read
  simp [signedHexDigits?, read]

theorem parseSignedHex_eq_ok {number : Int} :
    parseSignedHex literal = .ok number ↔ SpellsSigned literal number := by
  constructor
  · intro parsed
    unfold parseSignedHex at parsed
    split at parsed
    · next negative digits read =>
        cases parsed
        unfold signedHexDigits? at read
        split at read
        · next chars text =>
            obtain ⟨_, found, ⟨⟩⟩ := Option.map_eq_some_iff.mp read
            have signed : literal = "-" ++ String.ofList chars :=
              String.toList_inj.mp (by simp [text])
            rw [signed]
            exact .minus (spells_iff.mpr ⟨digits, by rwa [String.toList_ofList], rfl⟩)
        · obtain ⟨_, found, ⟨⟩⟩ := Option.map_eq_some_iff.mp read
          exact .plain (spells_iff.mpr ⟨digits, found, rfl⟩)
    · contradiction
  · intro signed
    cases signed with
    | plain spells =>
        obtain ⟨digits, read, rfl⟩ := spells_iff.mp spells
        simp [parseSignedHex, signedHexDigits_of_hexDigits read]
    | minus spells =>
        obtain ⟨digits, read, rfl⟩ := spells_iff.mp spells
        simp [parseSignedHex, signedHexDigits?, String.toList_append, read]

theorem Spells.hexByteLength_exists (spells : Spells literal number) :
    ∃ width, hexByteLength literal = .ok width ∧ number < 2 ^ (8 * width) := by
  obtain ⟨digits, read, rfl⟩ := spells_iff.mp spells
  obtain ⟨chars, _, _, _, valued⟩ := hexDigits_eq_some.mp read
  refine ⟨(digits.length + 1) / 2, by simp only [hexByteLength, read], ?_⟩
  calc Text.ofDigits 16 digits
      < 16 ^ digits.length := Text.ofDigits_lt (Text.digits_lt valued)
    _ = 2 ^ (4 * digits.length) := by rw [Nat.pow_mul]
    _ ≤ 2 ^ (8 * ((digits.length + 1) / 2)) := Nat.pow_le_pow_right (by decide) (by omega)

theorem hexByteLength_bounds (measured : hexByteLength literal = .ok width) :
    1 ≤ width ∧ width ≤ 16 := by
  simp only [hexByteLength] at measured
  split at measured
  · next digits read =>
      cases measured
      obtain ⟨chars, _, nonempty, bounded, valued⟩ := hexDigits_eq_some.mp read
      have lengths := congrArg List.length valued
      simp only [List.length_map, maxDigits] at lengths bounded
      omega
  · contradiction

end Literal

end Carve
