import Carve.Number

namespace Carve

abbrev Bytes := Array UInt8

namespace Bytes

/-- A bound inside `0 … size`; one below zero counts from the end. -/
def clampBound (size : Nat) (bound : Int) : Nat :=
  if bound < 0 then (size + bound).toNat else min bound.toNat size

/-- The bytes between two bounds, none if they are out of order. -/
def slice (stream : Bytes) (start stop : Int) : Bytes :=
  stream.extract (clampBound stream.size start) (clampBound stream.size stop)

theorem slice_of_le {stream : Bytes} {start stop : Int} (nonnegative : 0 ≤ start)
    (ordered : start ≤ stop) (inside : stop ≤ stream.size) :
    stream.slice start stop = stream.extract start.toNat stop.toNat := by
  have startBound : clampBound stream.size start = start.toNat := by
    unfold clampBound
    rw [if_neg (by omega)]
    omega
  have stopBound : clampBound stream.size stop = stop.toNat := by
    unfold clampBound
    rw [if_neg (by omega)]
    omega
  rw [slice, startBound, stopBound]

theorem extract_middle (front middle back : Bytes) :
    (front ++ middle ++ back).extract front.size (front.size + middle.size) = middle := by
  apply Array.toList_inj.mp
  simp

end Bytes

inductive ByteOrder where
  | little
  | big
deriving Repr, DecidableEq

namespace ByteOrder

/-- The number that bytes spell, the lowest first. -/
def lowFirst : List UInt8 → Nat
  | [] => 0
  | byte :: rest => byte.toNat + 256 * lowFirst rest

/-- The lowest `width` bytes of a number, the lowest first. -/
def lowBytes : Nat → Nat → List UInt8
  | 0, _ => []
  | width + 1, number => UInt8.ofNat (number % 256) :: lowBytes width (number / 256)

def arrange (order : ByteOrder) (bytes : List UInt8) : List UInt8 :=
  match order with
  | .little => bytes
  | .big => bytes.reverse

def value (order : ByteOrder) (bytes : List UInt8) : Nat :=
  lowFirst (order.arrange bytes)

def spell (order : ByteOrder) (width number : Nat) : List UInt8 :=
  order.arrange (lowBytes width number)

theorem length_lowBytes (width number : Nat) : (lowBytes width number).length = width := by
  induction width generalizing number with
  | zero => rfl
  | succ width ih => simp only [lowBytes, List.length_cons, ih]

theorem lowFirst_lt (bytes : List UInt8) : lowFirst bytes < 256 ^ bytes.length := by
  induction bytes with
  | nil => decide
  | cons byte rest ih =>
      have low := byte.toNat_lt
      simp only [lowFirst, List.length_cons, Nat.pow_succ]
      omega

theorem lowFirst_lowBytes (width number : Nat) :
    lowFirst (lowBytes width number) = number % 256 ^ width := by
  induction width generalizing number with
  | zero => simp [lowBytes, lowFirst, Nat.mod_one]
  | succ width ih =>
      have low : (UInt8.ofNat (number % 256)).toNat = number % 256 := by
        simp [UInt8.toNat_ofNat']
      simp only [lowBytes, lowFirst, ih, low, Nat.pow_succ]
      rw [Nat.mul_comm (256 ^ width) 256, Nat.mod_mul]

theorem lowBytes_lowFirst (bytes : List UInt8) :
    lowBytes bytes.length (lowFirst bytes) = bytes := by
  induction bytes with
  | nil => rfl
  | cons byte rest ih =>
      have low := byte.toNat_lt
      have digit : (byte.toNat + 256 * lowFirst rest) % 256 = byte.toNat := by omega
      have higher : (byte.toNat + 256 * lowFirst rest) / 256 = lowFirst rest := by omega
      simp only [List.length_cons, lowBytes, lowFirst, digit, higher, ih, UInt8.ofNat_toNat]

theorem arrange_arrange (order : ByteOrder) (bytes : List UInt8) :
    order.arrange (order.arrange bytes) = bytes := by
  cases order with
  | little => rfl
  | big => exact List.reverse_reverse bytes

theorem length_arrange (order : ByteOrder) (bytes : List UInt8) :
    (order.arrange bytes).length = bytes.length := by
  cases order with
  | little => rfl
  | big => exact List.length_reverse

theorem length_spell (order : ByteOrder) (width number : Nat) :
    (order.spell width number).length = width := by
  rw [spell, length_arrange, length_lowBytes]

theorem value_lt (order : ByteOrder) (bytes : List UInt8) :
    order.value bytes < 256 ^ bytes.length := by
  have bound := lowFirst_lt (order.arrange bytes)
  rwa [length_arrange] at bound

theorem value_spell (order : ByteOrder) (width number : Nat) :
    order.value (order.spell width number) = number % 256 ^ width := by
  rw [value, spell, arrange_arrange, lowFirst_lowBytes]

theorem spell_value (order : ByteOrder) (bytes : List UInt8) :
    order.spell bytes.length (order.value bytes) = bytes := by
  have whole := lowBytes_lowFirst (order.arrange bytes)
  rw [length_arrange] at whole
  rw [spell, value, whole, arrange_arrange]

end ByteOrder

/-- A call outside the range that an operation is defined on.  It is no finding about a stream or a
document. -/
inductive Fault where
  /-- A read that does not lie inside the bytes. -/
  | outsideBytes
  /-- A read of a type that has no width. -/
  | unknownWidth
  /-- The number of bytes of a text that is no hex literal. -/
  | notHex (literal : String)
  /-- An integer that does not fit in the bytes it is to be written to. -/
  | doesNotFit (value width : Int)
  /-- A search for no bytes at all. -/
  | emptySignature
deriving Repr, DecidableEq

def Fault.message : Fault → String
  | .outsideBytes => "Offset is outside the bounds of the DataView"
  | .unknownWidth => "Unsupported integer width: undefined"
  | .notHex literal => s!"Invalid hex literal \"{literal}\""
  | .doesNotFit value width => s!"Value {value} does not fit in {width} byte(s)"
  | .emptySignature => "Signature must contain at least one byte"

namespace Integer

/-- The whole part of `2 ^ exponent`. -/
def powerOfTwo (exponent : Int) : Int :=
  if exponent < 0 then 0 else 2 ^ exponent.toNat

/-- Whether a number fits in some bytes, as an unsigned number or as a negative one in two's
complement. -/
def fits (value width : Int) : Bool :=
  if value < 0 then decide (-powerOfTwo (8 * width - 1) ≤ value)
  else decide (value < powerOfTwo (8 * width))

def encode (value width : Int) (order : ByteOrder) : Except Fault Bytes :=
  if fits value width then
    let pattern := value % (2 ^ (8 * width.toNat) : Nat)
    .ok (order.spell width.toNat pattern.toNat).toArray
  else .error (.doesNotFit value width)

theorem size_encode {value width : Int} {order : ByteOrder} {bytes : Bytes}
    (encoded : encode value width order = .ok bytes) : bytes.size = width.toNat := by
  unfold encode at encoded
  split at encoded
  · cases encoded
    simp [ByteOrder.length_spell]
  · contradiction

end Integer

end Carve
