import Carve.Binary64.Reading
import Carve.Proofs.Binary64.Rounding
import Carve.Proofs.Literal
import Mathlib.Data.List.TakeWhile

/-!
The texts of numbers.

A text spells a number by a small grammar (`Numeral.Spelled`): blanks around digits with a point and
an exponent, around digits of another base behind a mark, around `Infinity`, or around nothing.
Each text that spells one is read as what that is rounded to, and every other text as no number
(`Binary64.ofText_spelled`, `Binary64.ofText_eq_nan`).
-/

namespace Carve

namespace Text

section Front

variable {test : Char → Bool} {front rest : List Char}
  (passed : ∀ char ∈ front, test char = true) (stops : ∀ char ∈ rest.head?, test char = false)
include passed stops

theorem dropWhile_front : (front ++ rest).dropWhile test = rest := by
  rw [List.dropWhile_append_of_pos passed]
  cases rest with
  | nil => rfl
  | cons first more => exact List.dropWhile_cons_of_neg (by simp [stops first rfl])

theorem takeWhile_front : (front ++ rest).takeWhile test = front := by
  have whole := List.takeWhile_append_dropWhile (p := test) (l := front ++ rest)
  rw [dropWhile_front passed stops] at whole
  exact List.append_cancel_right whole

end Front

/-- Blanks on either side of what has none are taken away. -/
theorem trim_around {front chars back : List Char} (blank : ∀ char ∈ front, isBlank char = true)
    (blankBack : ∀ char ∈ back, isBlank char = true)
    (solid : ∀ char ∈ chars, isBlank char = false) :
    trim (front ++ chars ++ back) = chars := by
  cases chars with
  | nil =>
      have all : ∀ char ∈ front ++ [] ++ back, isBlank char = true := by
        simpa using fun char member => member.elim (blank char) (blankBack char)
      rw [trim, List.dropWhile_eq_nil_iff.mpr all]
      rfl
  | cons first rest =>
      have stops : ∀ char ∈ (first :: rest ++ back).head?, isBlank char = false := by
        rintro _ ⟨⟩
        exact solid first List.mem_cons_self
      have stopsBack : ∀ char ∈ (first :: rest).reverse.head?, isBlank char = false := by
        intro char last
        exact solid char (List.mem_reverse.mp (List.mem_of_mem_head? last))
      rw [trim, List.append_assoc, dropWhile_front blank stops, List.reverse_append,
        dropWhile_front (by simpa using blankBack) stopsBack, List.reverse_reverse]

/-- What is taken away on either side is blank. -/
theorem trim_split (chars : List Char) : ∃ front back, (∀ char ∈ front, isBlank char = true) ∧
    (∀ char ∈ back, isBlank char = true) ∧ chars = front ++ trim chars ++ back := by
  refine ⟨chars.takeWhile isBlank, ((chars.dropWhile isBlank).reverse.takeWhile isBlank).reverse,
    ?_, ?_, ?_⟩
  · exact fun char member => List.mem_takeWhile_imp member
  · exact fun char member => List.mem_takeWhile_imp (List.mem_reverse.mp member)
  · rw [trim, List.append_assoc, ← List.reverse_append, List.takeWhile_append_dropWhile,
      List.reverse_reverse, List.takeWhile_append_dropWhile]

end Text

/-- What the text of a number stands for: a size with a sign, or more than any size. -/
inductive Numeral where
  | finite (negative : Bool) (size : ℚ)
  | infinite (negative : Bool)

namespace Numeral

inductive Sign : List Char → Bool → Prop
  | absent : Sign [] false
  | plus : Sign ['+'] false
  | minus : Sign ['-'] true

def AllDecimal (digits : List Char) : Prop := ∀ char ∈ digits, Text.isDecimalDigit char = true

/-- The power of ten behind the digits. -/
inductive Exponent : List Char → Int → Prop
  | absent : Exponent [] 0
  | present {mark : Char} {sign digits : List Char} {negative : Bool}
      (marked : mark = 'e' ∨ mark = 'E') (signed : Sign sign negative) (nonempty : digits ≠ [])
      (decimal : AllDecimal digits) :
      Exponent (mark :: (sign ++ digits))
        (if negative then -(Text.ofDecimalDigits digits : Int) else Text.ofDecimalDigits digits)

/-- The digits behind the point, with the point in front of them. -/
inductive Fraction : List Char → List Char → Prop
  | absent : Fraction [] []
  | point (digits : List Char) : Fraction ('.' :: digits) digits

/-- Digits, with a point before, between or behind them, and an exponent. -/
inductive Unsigned : List Char → ℚ → Prop
  | intro {whole fraction digits tail : List Char} {power : Int}
      (pointed : Fraction fraction digits)
      (decimal : AllDecimal (whole ++ digits)) (nonempty : whole ++ digits ≠ [])
      (exponent : Exponent tail power) :
      Unsigned (whole ++ fraction ++ tail)
        (Text.ofDecimalDigits (whole ++ digits) * 10 ^ (power - digits.length))

/-- The letters that mark a base. -/
inductive Base : Char → Nat → Prop
  | hex {mark : Char} (marked : mark = 'x' ∨ mark = 'X') : Base mark 16
  | octal {mark : Char} (marked : mark = 'o' ∨ mark = 'O') : Base mark 8
  | binary {mark : Char} (marked : mark = 'b' ∨ mark = 'B') : Base mark 2

/-- The texts of numbers without blanks around them. -/
inductive Plain : List Char → Numeral → Prop
  | empty : Plain [] (.finite false 0)
  | decimal {sign chars : List Char} {negative : Bool} {size : ℚ} (signed : Sign sign negative)
      (sized : Unsigned chars size) : Plain (sign ++ chars) (.finite negative size)
  | infinity {sign : List Char} {negative : Bool} (signed : Sign sign negative) :
      Plain (sign ++ "Infinity".toList) (.infinite negative)
  | based {mark : Char} {base : Nat} {chars : List Char} {digits : List Nat}
      (marked : Base mark base)
      (nonempty : chars ≠ []) (valued : chars.map Text.digitValue? = digits.map some)
      (below : ∀ digit ∈ digits, digit < base) :
      Plain ('0' :: mark :: chars) (.finite false (Text.ofDigits base digits))

inductive Spelled : String → Numeral → Prop
  | intro {front chars back : List Char} {numeral : Numeral}
      (blank : ∀ char ∈ front, Text.isBlank char = true)
      (blankBack : ∀ char ∈ back, Text.isBlank char = true) (plain : Plain chars numeral) :
      Spelled (String.ofList (front ++ chars ++ back)) numeral

def Rounds : Numeral → Binary64 → Prop
  | .finite negative size, number => Binary64.Rounds negative size number
  | .infinite negative, number => number = .infinite negative

theorem Rounds.ne_nan {numeral : Numeral} {number : Binary64} (rounds : numeral.Rounds number) :
    number ≠ .nan := by
  rintro rfl
  cases numeral with
  | finite negative size =>
      exact absurd (Binary64.Rounds.sign rounds) (by simp [Binary64.negative?])
  | infinite negative => cases rounds

/-- A sign, with what is behind it. -/
def signed : List Char → Bool × List Char
  | '-' :: rest => (true, rest)
  | '+' :: rest => (false, rest)
  | chars => (false, chars)

theorem signed_split (chars : List Char) :
    ∃ sign, Sign sign (signed chars).1 ∧ chars = sign ++ (signed chars).2 := by
  unfold signed
  split
  · exact ⟨_, .minus, rfl⟩
  · exact ⟨_, .plus, rfl⟩
  · exact ⟨_, .absent, rfl⟩

theorem signed_append {sign chars : List Char} {negative : Bool} (marked : Sign sign negative)
    (unsigned : ∀ char ∈ chars.head?, char ≠ '+' ∧ char ≠ '-') :
    signed (sign ++ chars) = (negative, chars) := by
  cases marked with
  | plus | minus => rfl
  | absent =>
      rw [List.nil_append, signed.eq_3]
      · rintro rest rfl
        exact (unsigned '-' rfl).2 rfl
      · rintro rest rfl
        exact (unsigned '+' rfl).1 rfl

theorem isDecimalDigit_unsigned {char : Char} (digit : Text.isDecimalDigit char = true) :
    char ≠ '+' ∧ char ≠ '-' := by
  constructor <;> (rintro rfl; contradiction)

/-- The digits behind a point, with what is behind them. -/
def pointed : List Char → List Char × List Char
  | '.' :: rest => (rest.takeWhile Text.isDecimalDigit, rest.dropWhile Text.isDecimalDigit)
  | chars => ([], chars)

theorem pointed_split (chars : List Char) : ∃ fraction, Fraction fraction (pointed chars).1 ∧
    AllDecimal (pointed chars).1 ∧ chars = fraction ++ (pointed chars).2 := by
  unfold pointed
  split
  · next rest =>
      refine ⟨_, .point _, fun char member => List.mem_takeWhile_imp member, ?_⟩
      rw [List.cons_append, List.takeWhile_append_dropWhile]
  · exact ⟨_, .absent, fun _ member => absurd member List.not_mem_nil, rfl⟩

theorem Exponent.marked {tail : List Char} {power : Int} (exponent : Exponent tail power) :
    ∀ char ∈ tail.head?, char = 'e' ∨ char = 'E' := by
  cases exponent with
  | absent => exact fun _ member => absurd member (Option.not_mem_none _)
  | present marked =>
      rintro _ ⟨⟩
      exact marked

theorem not_digit_of_marked {char : Char} (marked : char = 'e' ∨ char = 'E') :
    Text.isDecimalDigit char = false := by
  rcases marked with rfl | rfl <;> rfl

theorem pointed_append {fraction digits tail : List Char} {power : Int}
    (point : Fraction fraction digits) (decimal : AllDecimal digits)
    (exponent : Exponent tail power) :
    pointed (fraction ++ tail) = (digits, tail) := by
  have marked := exponent.marked
  cases point with
  | absent =>
      rw [List.nil_append, pointed.eq_2]
      rintro rest rfl
      rcases marked '.' rfl with same | same <;> contradiction
  | point =>
      have stops : ∀ char ∈ tail.head?, Text.isDecimalDigit char = false := fun char first =>
        not_digit_of_marked (marked char first)
      rw [List.cons_append, pointed, Text.takeWhile_front decimal stops,
        Text.dropWhile_front decimal stops]

/-- The characters of a size. -/
def InSize (char : Char) : Prop :=
  Text.isDecimalDigit char = true ∨ char = '.' ∨ (char = 'e' ∨ char = 'E') ∨
    char = '+' ∨ char = '-'

theorem Sign.inSize {sign : List Char} {negative : Bool} (signed : Sign sign negative) :
    ∀ char ∈ sign, InSize char := by
  cases signed with
  | absent => exact fun _ member => absurd member List.not_mem_nil
  | plus | minus => simp [InSize]

theorem Unsigned.inSize {chars : List Char} {size : ℚ} (sized : Unsigned chars size) :
    ∀ char ∈ chars, InSize char := by
  cases sized with
  | @intro whole fraction digits tail power point decimal nonempty exponent =>
      obtain ⟨decimalWhole, decimalDigits⟩ := List.forall_mem_append.mp decimal
      refine List.forall_mem_append.mpr ⟨List.forall_mem_append.mpr ⟨?_, ?_⟩, ?_⟩
      · exact fun char member => .inl (decimalWhole char member)
      · cases point with
        | absent => exact fun _ member => absurd member List.not_mem_nil
        | point =>
            refine List.forall_mem_cons.mpr ⟨.inr (.inl rfl), fun char member => ?_⟩
            exact .inl (decimalDigits char member)
      · cases exponent with
        | absent => exact fun _ member => absurd member List.not_mem_nil
        | present marked signed _ decimal =>
            refine List.forall_mem_cons.mpr ⟨.inr (.inr (.inl marked)), ?_⟩
            exact List.forall_mem_append.mpr
              ⟨signed.inSize, fun char member => .inl (decimal char member)⟩

theorem Unsigned.starts {chars : List Char} {size : ℚ} (sized : Unsigned chars size) :
    ∃ first rest, chars = first :: rest ∧ (Text.isDecimalDigit first = true ∨ first = '.') := by
  cases sized with
  | @intro whole fraction digits tail power point decimal nonempty exponent =>
      cases whole with
      | cons first rest => exact ⟨_, _, rfl, .inl (decimal _ List.mem_cons_self)⟩
      | nil =>
          cases point with
          | absent => exact absurd rfl nonempty
          | point => exact ⟨_, _, rfl, .inr rfl⟩

/-- The characters of a number can be seen. -/
theorem isBlank_of_visible {char : Char} (visible : 32 < char.toNat ∧ char.toNat < 127) :
    Text.isBlank char = false := by
  simp only [Text.isBlank, Bool.or_eq_false_iff, Bool.and_eq_false_iff, decide_eq_false_iff_not]
  omega

theorem isBlank_of_inSize {char : Char} (inSize : InSize char) : Text.isBlank char = false := by
  rcases inSize with digit | rfl | (rfl | rfl) | rfl | rfl
  · simp only [Text.isDecimalDigit, Bool.and_eq_true, decide_eq_true_eq] at digit
    have lower : 48 ≤ char.toNat := Char.le_def.mp digit.1
    have upper : char.toNat ≤ 57 := Char.le_def.mp digit.2
    exact isBlank_of_visible (by omega)
  all_goals rfl

theorem isBlank_of_digitValue {char : Char} {digit : Nat}
    (valued : Text.digitValue? char = some digit) : Text.isBlank char = false := by
  unfold Text.digitValue? at valued
  apply isBlank_of_visible
  split at valued
  · next range =>
      have lower : 48 ≤ char.toNat := Char.le_def.mp range.1
      have upper : char.toNat ≤ 57 := Char.le_def.mp range.2
      omega
  · split at valued
    · next range =>
        have lower : 97 ≤ char.toNat := Char.le_def.mp range.1
        have upper : char.toNat ≤ 102 := Char.le_def.mp range.2
        omega
    · split at valued
      · next range =>
          have lower : 65 ≤ char.toNat := Char.le_def.mp range.1
          have upper : char.toNat ≤ 70 := Char.le_def.mp range.2
          omega
      · contradiction

theorem Plain.solid {chars : List Char} {numeral : Numeral} (plain : Plain chars numeral) :
    ∀ char ∈ chars, Text.isBlank char = false := by
  cases plain with
  | empty => exact fun _ member => absurd member List.not_mem_nil
  | decimal signed sized =>
      exact List.forall_mem_append.mpr
        ⟨fun char member => isBlank_of_inSize (signed.inSize char member),
          fun char member => isBlank_of_inSize (sized.inSize char member)⟩
  | infinity signed =>
      have word : "Infinity".toList.all (fun char => !Text.isBlank char) = true := rfl
      refine List.forall_mem_append.mpr
        ⟨fun char member => isBlank_of_inSize (signed.inSize char member), fun char member => ?_⟩
      simpa using List.all_eq_true.mp word char member
  | @based mark base chars digits marked nonempty valued below =>
      refine List.forall_mem_cons.mpr ⟨rfl, List.forall_mem_cons.mpr ⟨?_, ?_⟩⟩
      · cases marked with
        | hex marked | octal marked | binary marked => rcases marked with rfl | rfl <;> rfl
      · intro char member
        have there : Text.digitValue? char ∈ digits.map some := valued ▸ List.mem_map_of_mem member
        obtain ⟨digit, _, known⟩ := List.mem_map.mp there
        exact isBlank_of_digitValue known.symm

end Numeral

namespace Binary64

open Numeral

theorem decimalExponent?_cons (mark : Char) (rest : List Char) :
    decimalExponent? (mark :: rest) =
      if mark = 'e' ∨ mark = 'E' then
        if (signed rest).2.isEmpty || !(signed rest).2.all Text.isDecimalDigit then none
        else some (if (signed rest).1 then -(Text.ofDecimalDigits (signed rest).2 : Int)
          else Text.ofDecimalDigits (signed rest).2)
      else none := by
  rfl

theorem digits_tested {digits : List Char} :
    (digits.isEmpty || !digits.all Text.isDecimalDigit) = false ↔
      digits ≠ [] ∧ AllDecimal digits := by
  simp [AllDecimal, List.isEmpty_eq_false_iff]

theorem decimalExponent?_eq_some {chars : List Char} {power : Int} :
    decimalExponent? chars = some power ↔ Exponent chars power := by
  constructor
  · intro read
    cases chars with
    | nil =>
        cases read
        exact .absent
    | cons mark rest =>
        obtain ⟨sign, signs, split⟩ := signed_split rest
        rw [decimalExponent?_cons] at read
        generalize signed rest = parts at signs split read
        subst split
        split at read
        · next marked =>
            split at read
            · contradiction
            · next tested =>
                obtain ⟨nonempty, decimal⟩ := digits_tested.mp (Bool.eq_false_iff.mpr tested)
                cases read
                exact .present marked signs nonempty decimal
        · contradiction
  · intro spelled
    cases spelled with
    | absent => rfl
    | @present mark sign digits negative marked signs nonempty decimal =>
        have unsigned : ∀ char ∈ digits.head?, char ≠ '+' ∧ char ≠ '-' := fun char first =>
          isDecimalDigit_unsigned (decimal char (List.mem_of_mem_head? first))
        rw [decimalExponent?_cons, if_pos marked, signed_append signs unsigned,
          if_neg (Bool.eq_false_iff.mp (digits_tested.mpr ⟨nonempty, decimal⟩))]

theorem ofUnsigned?_eq (negative : Bool) (chars : List Char) :
    ofUnsigned? negative chars =
      if chars = "Infinity".toList then some (.infinite negative)
      else
        let whole := chars.takeWhile Text.isDecimalDigit
        let parts := pointed (chars.dropWhile Text.isDecimalDigit)
        if whole.isEmpty && parts.1.isEmpty then none
        else (decimalExponent? parts.2).map fun exponent =>
          ofDecimal negative (Text.ofDecimalDigits (whole ++ parts.1))
            (exponent - parts.1.length) :=
  rfl

theorem ofUnsigned?_read {negative : Bool} {chars : List Char} {number : Binary64}
    (read : ofUnsigned? negative chars = some number) :
    chars = "Infinity".toList ∧ number = .infinite negative ∨
      ∃ size, Unsigned chars size ∧ Rounds negative size number := by
  rw [ofUnsigned?_eq] at read
  split at read
  · next infinity =>
      cases read
      exact .inl ⟨infinity, rfl⟩
  · dsimp only at read
    split at read
    · contradiction
    · next some =>
        obtain ⟨fraction, point, decimal, split⟩ :=
          pointed_split (chars.dropWhile Text.isDecimalDigit)
        obtain ⟨power, exponent, rfl⟩ := Option.map_eq_some_iff.mp read
        have whole := List.takeWhile_append_dropWhile (p := Text.isDecimalDigit) (l := chars)
        refine .inr ⟨_, ?_, ofDecimal_rounds negative _ _⟩
        rw [split, ← List.append_assoc] at whole
        have sized := @Unsigned.intro (chars.takeWhile Text.isDecimalDigit) _ _ _ _ point
          (List.forall_mem_append.mpr ⟨fun char member => List.mem_takeWhile_imp member, decimal⟩)
          (by simpa [List.isEmpty_iff] using some) (decimalExponent?_eq_some.mp exponent)
        rwa [whole] at sized

theorem ofUnsigned?_size (negative : Bool) {chars : List Char} {size : ℚ}
    (sized : Unsigned chars size) :
    ∃ number, ofUnsigned? negative chars = some number ∧ Rounds negative size number := by
  cases sized with
  | @intro whole fraction digits tail power point decimal nonempty exponent =>
      obtain ⟨decimalWhole, decimalDigits⟩ := List.forall_mem_append.mp decimal
      have stops : ∀ char ∈ (fraction ++ tail).head?, Text.isDecimalDigit char = false := by
        cases point with
        | absent => exact fun char first => not_digit_of_marked (exponent.marked char first)
        | point =>
            rintro _ ⟨⟩
            rfl
      have takes := Text.takeWhile_front decimalWhole stops
      have drops := Text.dropWhile_front decimalWhole stops
      have bounded : whole ++ (fraction ++ tail) ≠ "Infinity".toList := by
        intro same
        rw [same] at takes
        subst takes
        cases point with
        | absent => exact nonempty rfl
        | point => cases same
      have some : ¬ (whole.isEmpty && digits.isEmpty) = true := by
        simpa [List.isEmpty_iff] using nonempty
      refine ⟨_, ?_, ofDecimal_rounds negative _ _⟩
      rw [List.append_assoc, ofUnsigned?_eq, if_neg bounded, takes, drops,
        pointed_append point decimalDigits exponent, if_neg some,
        decimalExponent?_eq_some.mpr exponent]
      rfl

/-- The base that a letter marks. -/
def baseOf? (mark : Char) : Option Nat :=
  match mark with
  | 'x' | 'X' => some 16
  | 'o' | 'O' => some 8
  | 'b' | 'B' => some 2
  | _ => none

theorem baseOf?_eq_some {mark : Char} {base : Nat} : baseOf? mark = some base ↔ Base mark base := by
  constructor
  · intro known
    unfold baseOf? at known
    split at known <;> cases known
    · exact .hex (.inl rfl)
    · exact .hex (.inr rfl)
    · exact .octal (.inl rfl)
    · exact .octal (.inr rfl)
    · exact .binary (.inl rfl)
    · exact .binary (.inr rfl)
  · intro marked
    cases marked with
    | hex marked | octal marked | binary marked => rcases marked with rfl | rfl <;> rfl

theorem ofMarked?_cons (mark : Char) (digits : List Char) :
    ofMarked? ('0' :: mark :: digits) = (baseOf? mark).bind fun base =>
      if digits.isEmpty then none
      else (Text.digitValues? base digits).map fun values =>
        ofRatio false (Text.ofDigits base values) 1 :=
  rfl

theorem ofMarked?_eq_some {chars : List Char} {number : Binary64} :
    ofMarked? chars = some number ↔ ∃ mark base rest digits, chars = '0' :: mark :: rest ∧
      Base mark base ∧ rest ≠ [] ∧ Text.digitValues? base rest = some digits ∧
      number = ofRatio false (Text.ofDigits base digits) 1 := by
  constructor
  · intro read
    unfold ofMarked? at read
    split at read
    · next mark rest =>
        obtain ⟨base, known, read⟩ := Option.bind_eq_some_iff.mp read
        split at read
        · contradiction
        · next some =>
            obtain ⟨digits, valued, rfl⟩ := Option.map_eq_some_iff.mp read
            exact ⟨mark, base, rest, digits, rfl, baseOf?_eq_some.mp known,
              by simpa [List.isEmpty_iff] using some, valued, rfl⟩
    · contradiction
  · intro spelled
    obtain ⟨mark, base, rest, digits, rfl, marked, nonempty, valued, rfl⟩ := spelled
    rw [ofMarked?_cons, baseOf?_eq_some.mpr marked, Option.bind_some,
      if_neg (by simpa [List.isEmpty_iff] using nonempty), valued, Option.map_some]

/-- The number that a text without blanks at its ends spells. -/
def ofPlain (chars : List Char) : Binary64 :=
  if chars.isEmpty then zero
  else (ofMarked? chars).getD ((ofUnsigned? (signed chars).1 (signed chars).2).getD .nan)

theorem ofText_eq (text : String) : ofText text = ofPlain (Text.trim text.toList) := by
  unfold ofText ofPlain signed
  generalize Text.trim text.toList = chars
  dsimp only
  cases ofMarked? chars with
  | some number => rfl
  | none =>
      simp only [Option.getD_none]
      congr 2
      split <;> simp_all

theorem ofMarked?_size {sign chars : List Char} {negative : Bool} {size : ℚ}
    (signs : Sign sign negative) (sized : Unsigned chars size) :
    ofMarked? (sign ++ chars) = none := by
  refine Option.eq_none_iff_forall_ne_some.mpr fun number read => ?_
  obtain ⟨mark, base, rest, digits, same, marked, _⟩ := ofMarked?_eq_some.mp read
  have inSize : InSize mark :=
    List.forall_mem_append.mpr ⟨signs.inSize, sized.inSize⟩ mark (by simp [same])
  cases marked with
  | hex marked | octal marked | binary marked =>
      rcases marked with rfl | rfl <;> exact absurd inSize (by unfold InSize; decide)

theorem ofMarked?_infinity {sign : List Char} {negative : Bool} (signs : Sign sign negative) :
    ofMarked? (sign ++ "Infinity".toList) = none := by
  cases signs <;> rfl

theorem ofPlain_spelled {chars : List Char} {numeral : Numeral} (plain : Plain chars numeral) :
    numeral.Rounds (ofPlain chars) := by
  cases plain with
  | empty => exact zero_rounds false (le_refl _) (by rw [mul_zero]; positivity)
  | @decimal sign chars negative size signs sized =>
      obtain ⟨number, read, rounds⟩ := ofUnsigned?_size negative sized
      obtain ⟨first, rest, rfl, begins⟩ := sized.starts
      have unsigned : ∀ char ∈ (first :: rest).head?, char ≠ '+' ∧ char ≠ '-' := by
        rintro _ ⟨⟩
        rcases begins with digit | rfl
        · exact isDecimalDigit_unsigned digit
        · decide
      rw [ofPlain, if_neg (by simp), ofMarked?_size signs sized, Option.getD_none,
        signed_append signs unsigned, read]
      exact rounds
  | @infinity sign negative signs =>
      have unsigned : ∀ char ∈ "Infinity".toList.head?, char ≠ '+' ∧ char ≠ '-' := by
        rintro char ⟨⟩
        decide
      rw [ofPlain, if_neg (by simp), ofMarked?_infinity signs, Option.getD_none,
        signed_append signs unsigned]
      rfl
  | @based mark base chars digits marked nonempty valued below =>
      have read := ofMarked?_eq_some.mpr ⟨mark, base, chars, digits, rfl, marked, nonempty,
        Text.digitValues_below.mpr ⟨valued, below⟩, rfl⟩
      rw [ofPlain, if_neg (by simp), read, Option.getD_some]
      have rounds := ofRatio_rounds false (Text.ofDigits base digits) Nat.one_pos
      rwa [Nat.cast_one, div_one] at rounds

theorem ofPlain_eq_nan {chars : List Char} (nothing : ∀ numeral, ¬ Plain chars numeral) :
    ofPlain chars = .nan := by
  unfold ofPlain
  split
  · next empty =>
      rw [List.isEmpty_iff] at empty
      exact absurd (empty ▸ Plain.empty) (nothing _)
  · cases marked : ofMarked? chars with
    | some number =>
        obtain ⟨mark, base, rest, digits, rfl, marks, nonempty, valued, _⟩ :=
          ofMarked?_eq_some.mp marked
        obtain ⟨valued, below⟩ := Text.digitValues_below.mp valued
        exact absurd (.based marks nonempty valued below) (nothing _)
    | none =>
        obtain ⟨sign, signs, split⟩ := signed_split chars
        generalize signed chars = parts at signs split ⊢
        subst split
        cases read : ofUnsigned? parts.1 parts.2 with
        | none => rfl
        | some number =>
            rcases ofUnsigned?_read read with ⟨infinity, _⟩ | ⟨size, sized, _⟩
            · rw [infinity] at nothing
              exact absurd (.infinity signs) (nothing _)
            · exact absurd (.decimal signs sized) (nothing _)

/-- A text of a number is read as the number that its value is rounded to. -/
theorem ofText_spelled {text : String} {numeral : Numeral} (spelled : Spelled text numeral) :
    numeral.Rounds (ofText text) := by
  cases spelled with
  | intro blank blankBack plain =>
      rw [ofText_eq, String.toList_ofList, Text.trim_around blank blankBack plain.solid]
      exact ofPlain_spelled plain

/-- Only a text that spells nothing is read as no number. -/
theorem ofText_eq_nan {text : String} : ofText text = .nan ↔ ∀ numeral, ¬ Spelled text numeral := by
  constructor
  · intro read numeral spelled
    exact (ofText_spelled spelled).ne_nan read
  · intro nothing
    obtain ⟨front, back, blank, blankBack, split⟩ := Text.trim_split text.toList
    rw [ofText_eq]
    refine ofPlain_eq_nan fun numeral plain => nothing numeral ?_
    rw [← String.ofList_toList (s := text), split]
    exact .intro blank blankBack plain

end Binary64

end Carve
