import Carve.Proofs.Reencoding

/-!
Well-formed UTF-8.

A code point is spelled by a sequence of one to four bytes: a lead byte, which tells how many there
are, and behind it bytes with six bits of the code point each.  A sequence must not be longer than
its code point needs, and code points end at U+10FFFF and leave out the surrogates
(`Utf8.Sequence`).  The bytes of a text are one such sequence after the other for its characters,
and a text is found in no other bytes (`Utf8.fromUTF8?_eq_some`).

So a text is read of well-formed UTF-8 and of nothing else (`Field.decode_text`).  Once it has a
place and a size in the stream, only its own bytes decide: those behind it do not complete a
sequence that the size cuts off, and none of them is dropped from the front.
-/

namespace Carve

namespace Utf8

/-- A byte behind a lead byte, which holds six bits. -/
def Continues (byte : UInt8) : Prop := 0x80 ≤ byte.toNat ∧ byte.toNat < 0xc0

/-- A lead byte with the bytes that it announces, and the number that their bits make up. -/
inductive Shape : List UInt8 → Nat → Prop
  | one {lead : UInt8} (low : lead.toNat < 0x80) : Shape [lead] lead.toNat
  | two {lead second : UInt8} (low : 0xc0 ≤ lead.toNat) (high : lead.toNat < 0xe0)
      (continues : Continues second) :
      Shape [lead, second] (lead.toNat % 0x20 * 0x40 + second.toNat % 0x40)
  | three {lead second third : UInt8} (low : 0xe0 ≤ lead.toNat) (high : lead.toNat < 0xf0)
      (continues : Continues second) (continuesThird : Continues third) :
      Shape [lead, second, third]
        (lead.toNat % 0x10 * 0x1000 + second.toNat % 0x40 * 0x40 + third.toNat % 0x40)
  | four {lead second third fourth : UInt8} (low : 0xf0 ≤ lead.toNat) (high : lead.toNat < 0xf8)
      (continues : Continues second) (continuesThird : Continues third)
      (continuesFourth : Continues fourth) :
      Shape [lead, second, third, fourth]
        (lead.toNat % 0x08 * 0x40000 + second.toNat % 0x40 * 0x1000 + third.toNat % 0x40 * 0x40 +
          fourth.toNat % 0x40)

/-- The first number that needs so many bytes. -/
def least : Nat → Nat
  | 0 | 1 => 0
  | 2 => 0x80
  | 3 => 0x800
  | _ => 0x10000

/-- The bytes that spell a code point: no more than it needs, and no surrogate. -/
structure Sequence (bytes : List UInt8) (code : Nat) : Prop where
  shape : Shape bytes code
  shortest : least bytes.length ≤ code
  scalar : code < 0xd800 ∨ 0xdfff < code
  bounded : code ≤ 0x10ffff

/-- The bytes are the sequences of some code points, one after the other. -/
inductive Spells : List UInt8 → List Nat → Prop
  | nil : Spells [] []
  | cons {front back : List UInt8} {code : Nat} {codes : List Nat} (sequence : Sequence front code)
      (rest : Spells back codes) : Spells (front ++ back) (code :: codes)

def WellFormed (bytes : List UInt8) : Prop := ∃ codes, Spells bytes codes

variable {bytes : List UInt8} {code : Nat} {codes : List Nat}

theorem byte_eq (byte : UInt8) {number : Nat} (same : number = byte.toNat) :
    UInt8.ofNat number = byte := by
  rw [same, UInt8.ofNat_toNat]

/-- A sequence is what its code point is encoded as. -/
theorem Sequence.encodes (sequence : Sequence bytes code) :
    ∃ char : Char, char.toNat = code ∧ String.utf8EncodeChar char = bytes := by
  obtain ⟨shape, shortest, scalar, bounded⟩ := sequence
  have valid : code.isValidChar := scalar.imp id fun high => ⟨high, by omega⟩
  obtain ⟨char, same⟩ : ∃ char : Char, char.toNat = code := ⟨.ofNatAux code valid, rfl⟩
  refine ⟨char, same, ?_⟩
  simp only [String.utf8EncodeChar, Char.toNat_val, same]
  cases shape with
  | one low => rw [if_pos (by omega), UInt8.ofNat_toNat]
  | @two lead second low high continues =>
      obtain ⟨_, _⟩ := continues
      simp only [least, List.length_cons, List.length_nil] at shortest
      rw [if_neg (by omega), if_pos (by omega), byte_eq lead (by omega),
        byte_eq second (by omega)]
  | @three lead second third low high continues continuesThird =>
      obtain ⟨_, _⟩ := continues
      obtain ⟨_, _⟩ := continuesThird
      simp only [least, List.length_cons, List.length_nil] at shortest
      rw [if_neg (by omega), if_neg (by omega), if_pos (by omega),
        byte_eq lead (by omega), byte_eq second (by omega),
        byte_eq third (by omega)]
  | @four lead second third fourth low high continues continuesThird continuesFourth =>
      obtain ⟨_, _⟩ := continues
      obtain ⟨_, _⟩ := continuesThird
      obtain ⟨_, _⟩ := continuesFourth
      simp only [least, List.length_cons, List.length_nil] at shortest
      rw [if_neg (by omega), if_neg (by omega), if_neg (by omega),
        byte_eq lead (by omega), byte_eq second (by omega),
        byte_eq third (by omega), byte_eq fourth (by omega)]

theorem continues_ofNat (bits : Nat) : Continues (UInt8.ofNat (bits % 64 + 128)) := by
  simp only [Continues, UInt8.toNat_ofNat']
  omega

theorem Shape.of_eq {number : Nat} (shape : Shape bytes number) (same : number = code) :
    Shape bytes code :=
  same ▸ shape

/-- A character is encoded as a sequence for it. -/
theorem sequence_encode (char : Char) :
    Sequence (String.utf8EncodeChar char) char.toNat := by
  have valid : char.toNat.isValidChar := char.valid
  have scalar : char.toNat < 0xd800 ∨ 0xdfff < char.toNat := valid.imp id And.left
  have bounded : char.toNat ≤ 0x10ffff := by
    rcases valid with _ | _ <;> omega
  suffices shaped : Shape (String.utf8EncodeChar char) char.toNat ∧
      least (String.utf8EncodeChar char).length ≤ char.toNat from
    ⟨shaped.1, shaped.2, scalar, bounded⟩
  simp only [String.utf8EncodeChar, Char.toNat_val]
  generalize char.toNat = code at *
  have byte (number : Nat) : (UInt8.ofNat number).toNat = number % 256 := UInt8.toNat_ofNat'
  split
  · next low =>
      refine ⟨(Shape.one ?_).of_eq ?_, Nat.zero_le _⟩ <;> simp only [byte] <;> omega
  · next second =>
      split
      · next low =>
          refine ⟨(Shape.two ?_ ?_ (continues_ofNat _)).of_eq ?_, Nat.lt_of_not_le second⟩ <;>
            simp only [byte] <;> omega
      · next third =>
          split
          · next low =>
              refine ⟨(Shape.three ?_ ?_ (continues_ofNat _) (continues_ofNat _)).of_eq ?_,
                Nat.lt_of_not_le third⟩ <;> simp only [byte] <;> omega
          · next fourth =>
              refine ⟨(Shape.four ?_ ?_ (continues_ofNat _) (continues_ofNat _)
                (continues_ofNat _)).of_eq ?_, Nat.lt_of_not_le fourth⟩ <;>
                simp only [byte] <;> omega

theorem spells_encode (chars : List Char) :
    Spells (chars.flatMap String.utf8EncodeChar) (chars.map Char.toNat) := by
  induction chars with
  | nil => exact .nil
  | cons char rest ih => exact .cons (sequence_encode char) ih

theorem Spells.encodes (spells : Spells bytes codes) :
    ∃ chars : List Char, chars.map Char.toNat = codes ∧
      chars.flatMap String.utf8EncodeChar = bytes := by
  induction spells with
  | nil => exact ⟨[], rfl, rfl⟩
  | cons sequence rest ih =>
      obtain ⟨char, rfl, rfl⟩ := sequence.encodes
      obtain ⟨chars, rfl, rfl⟩ := ih
      exact ⟨char :: chars, rfl, rfl⟩

/-- Well-formed bytes do not end with a lead byte: no sequence is cut off. -/
theorem Spells.last_lt (spells : Spells bytes codes) :
    ∀ last ∈ bytes.getLast?, last.toNat < 0xc0 := by
  induction spells with
  | nil => simp
  | @cons front back _ _ sequence rest ih =>
      rw [List.getLast?_append]
      cases behind : back.getLast? with
      | some last =>
          rw [behind] at ih
          simpa using ih
      | none =>
          cases sequence.shape with
          | one low => simp; omega
          | two low high continues => simpa using continues.2
          | three low high continues continuesThird => simpa using continuesThird.2
          | four low high continues continuesThird continuesFourth => simpa using continuesFourth.2

/-- The bytes of a text are those of its characters. -/
theorem toList_toUTF8 (text : String) :
    text.toUTF8.data.toList = text.toList.flatMap String.utf8EncodeChar := by
  rw [String.toUTF8_eq_toByteArray, ← String.utf8Encode_toList]
  exact List.toList_data_toByteArray

/-- The text of some bytes is the one that they spell. -/
theorem fromUTF8?_eq_some {content : Bytes} {text : String} :
    String.fromUTF8? ⟨content⟩ = some text ↔
      Spells content.toList (text.toList.map Char.toNat) := by
  constructor
  · intro read
    have bytes := congrArg ByteArray.data (Text.toUTF8_of_fromUTF8? read)
    rw [← show text.toUTF8.data = content from bytes, toList_toUTF8]
    exact spells_encode text.toList
  · intro spells
    obtain ⟨chars, codes, encoded⟩ := spells.encodes
    obtain rfl : chars = text.toList :=
      (List.map_inj_right fun _ _ => Char.toNat_inj.mp).mp codes
    have bytes : text.toUTF8 = ⟨content⟩ :=
      ByteArray.ext (Array.toList_inj.mp (encoded ▸ toList_toUTF8 text))
    rw [← bytes]
    exact Text.fromUTF8?_toUTF8 text

theorem fromUTF8?_exists_iff {content : Bytes} :
    (∃ text, String.fromUTF8? ⟨content⟩ = some text) ↔ WellFormed content.toList := by
  simp only [fromUTF8?_eq_some]
  constructor
  · intro read
    obtain ⟨text, spells⟩ := read
    exact ⟨_, spells⟩
  · intro wellFormed
    obtain ⟨codes, spells⟩ := wellFormed
    obtain ⟨chars, rfl, _⟩ := spells.encodes
    exact ⟨String.ofList chars, by rwa [String.toList_ofList]⟩

end Utf8

namespace Field

variable {field : Field Int} {size : Size Int} {context : DecodeContext} {readings : Table Reading}
  {stream : Bytes} {cursor : Int} {position count : Nat}

section

variable (content : field.content = .text size) (small : stream.size < 2 ^ 53)
  (placed : field.position cursor stream.size = .ok position)
  (sized : field.size context readings position size = .ok count)
  (inside : position + count ≤ stream.size)
include content small placed sized inside

theorem decode_text_eq : field.decode context readings stream cursor =
    match String.fromUTF8? ⟨stream.extract position (position + count)⟩ with
    | none => .error (.refused ⟨field.name, position, .invalidUtf8⟩)
    | some text => .ok { value := .utf8 text, offset := position, size := count } := by
  have positive (other : Int) (found : field.size context readings position size = .ok other) :
      0 ≤ other := by
    cases sized.symm.trans found
    exact Int.natCast_nonneg count
  have taken : field.decodeSized true size context readings stream position = _ :=
    decodeSized_eq (by simpa using content) positive small (Int.natCast_nonneg position)
  have enough : (position : Int) + count ≤ stream.size := by omega
  have bounds : ((position : Int) + count).toNat = position + count := by omega
  rw [decode, placed]
  simp only [content, taken, sized, bind, Except.bind, readAt,
    require_eq small (Int.natCast_nonneg position) (Int.natCast_nonneg count), if_pos enough,
    Content.value?, bounds, Int.toNat_natCast]
  cases String.fromUTF8? ⟨stream.extract position (position + count)⟩ <;> rfl

/-- A text with a place and a size in the stream is read if its bytes are well-formed UTF-8, and
else is refused at its place.  What is read has just these bytes. -/
theorem decode_text :
    let bytes := stream.extract position (position + count)
    let decoded := field.decode context readings stream cursor
    ((∃ text offset taken, decoded = .ok { value := .utf8 text, offset, size := taken }) ↔
      Utf8.WellFormed bytes.toList) ∧
    (∀ reading, decoded = .ok reading →
      ∃ text, reading = { value := .utf8 text, offset := position, size := count } ∧
        Utf8.Spells bytes.toList (text.toList.map Char.toNat) ∧ text.toUTF8.data = bytes) ∧
    (¬ Utf8.WellFormed bytes.toList →
      decoded = .error (.refused ⟨field.name, position, .invalidUtf8⟩)) := by
  intro bytes decoded
  have read : decoded = _ := decode_text_eq content small placed sized inside
  rw [read, ← Utf8.fromUTF8?_exists_iff]
  cases spelled : String.fromUTF8? ⟨bytes⟩ with
  | none => simp
  | some text =>
      have spells := Utf8.fromUTF8?_eq_some.mp spelled
      have same := congrArg ByteArray.data (Text.toUTF8_of_fromUTF8? spelled)
      simp only [Option.some.injEq, exists_eq', not_true, false_implies, and_true, iff_true]
      refine ⟨⟨text, _, _, rfl⟩, ?_⟩
      rintro _ ⟨⟩
      exact ⟨text, rfl, spells, same⟩

end

def sampleText (count : Nat) : Field Int where
  name := "note"
  content := .text (.literal count)
  align := none
  offset := some 1

def sampleContext : DecodeContext where
  structureName := "block"
  byteOrder := .big
  maxSize := 0
  store := default

/-- A byte-order mark and two letters, the second of which takes two bytes. -/
def sampleNote : Bytes := #[0x00, 0xef, 0xbb, 0xbf, 0x41, 0xc3, 0xa9]

theorem sampleNote_spelled : Utf8.Spells [0xef, 0xbb, 0xbf, 0x41] [0xfeff, 0x41] := by
  have mark : Utf8.Shape [0xef, 0xbb, 0xbf] 0xfeff :=
    .three (by decide) (by decide) ⟨by decide, by decide⟩ ⟨by decide, by decide⟩
  exact .cons ⟨mark, by decide, by decide, by decide⟩
    (.cons ⟨.one (by decide), by decide, by decide, by decide⟩ .nil)

/-- The byte-order mark is kept, and the last letter is not completed by a byte behind the text. -/
theorem decode_text_sample :
    (sampleText 4).decode sampleContext .empty sampleNote 0 =
        .ok { value := .utf8 "\uFEFFA", offset := 1, size := 4 } ∧
      (sampleText 5).decode sampleContext .empty sampleNote 0 =
        .error (.refused ⟨"note", 1, .invalidUtf8⟩) := by
  have small : sampleNote.size < 2 ^ 53 := by decide
  constructor
  · obtain ⟨⟨_, whole⟩, kept, _⟩ := @decode_text (sampleText 4) _ sampleContext .empty sampleNote 0
      1 4 rfl small rfl rfl (by decide)
    obtain ⟨text, offset, taken, decoded⟩ := whole ⟨_, sampleNote_spelled⟩
    obtain ⟨_, same, spells, _⟩ := kept _ decoded
    cases same
    have known : String.fromUTF8? ⟨sampleNote.extract 1 5⟩ = some "\uFEFFA" :=
      Utf8.fromUTF8?_eq_some.mpr sampleNote_spelled
    cases (Utf8.fromUTF8?_eq_some.mpr spells).symm.trans known
    exact decoded
  · obtain ⟨_, _, refused⟩ := @decode_text (sampleText 5) _ sampleContext .empty sampleNote 0
      1 5 rfl small rfl rfl (by decide)
    refine refused fun wellFormed => ?_
    obtain ⟨codes, spells⟩ := wellFormed
    exact absurd (spells.last_lt 0xc3 rfl) (by decide)

end Field

end Carve
