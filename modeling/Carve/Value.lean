import Carve.Binary64
import Carve.Bytes

namespace Carve

/-- A decoded value.  An integer remembers the width it was read with, in bits. -/
inductive Value where
  | uint (bits : Nat) (number : Int)
  | int (bits : Nat) (number : Int)
  | f32 (number : Binary64)
  | f64 (number : Binary64)
  | bytes (content : Bytes)
  | utf8 (text : String)
deriving Repr, DecidableEq

namespace Value

def kind : Value → String
  | .uint _ _ => "uint"
  | .int _ _ => "int"
  | .f32 _ => "f32"
  | .f64 _ => "f64"
  | .bytes _ => "bytes"
  | .utf8 _ => "utf8"

/-- The most bits an integer may have to supply a size. -/
def maxSizeBits : Nat := 64

/-- The number of an integer that may supply a size. -/
def size? : Value → Option Int
  | .uint bits number | .int bits number => if bits ≤ maxSizeBits then some number else none
  | _ => none

/-- A value without its kind and width, as exporters take it. -/
inductive Plain where
  | integer (number : Int)
  | number (number : Binary64)
  | bytes (content : Bytes)
  | text (text : String)
deriving Repr, DecidableEq

def plain : Value → Plain
  | .uint _ number | .int _ number => .integer number
  | .f32 number | .f64 number => .number number
  | .bytes content => .bytes content
  | .utf8 text => .text text

end Value

inductive Width where
  | one
  | two
  | four
  | eight
  | sixteen
deriving Repr, DecidableEq

def Width.bytes : Width → Nat
  | .one => 1
  | .two => 2
  | .four => 4
  | .eight => 8
  | .sixteen => 16

structure IntegerType where
  signed : Bool
  width : Width
deriving Repr, DecidableEq

namespace IntegerType

def bits (type : IntegerType) : Nat := 8 * type.width.bytes

def name (type : IntegerType) : String :=
  (if type.signed then "i" else "u") ++ Nat.repr type.bits

def all : List IntegerType :=
  [false, true].flatMap fun signed =>
    [.one, .two, .four, .eight, .sixteen].map fun width => { signed, width }

def ofName? (name : String) : Option IntegerType :=
  all.find? fun type => type.name = name

/-- The integer with the given bits, in two's complement if the type is signed. -/
def value (type : IntegerType) (pattern : Nat) : Value :=
  if type.signed then .int type.bits (Int.bmod pattern (2 ^ type.bits))
  else .uint type.bits pattern

end IntegerType

inductive Primitive where
  | integer (type : IntegerType)
  | f32
  | f64
deriving Repr, DecidableEq

namespace Primitive

def width : Primitive → Nat
  | .integer type => type.width.bytes
  | .f32 => 4
  | .f64 => 8

def name : Primitive → String
  | .integer type => type.name
  | .f32 => "f32"
  | .f64 => "f64"

def all : List Primitive := IntegerType.all.map .integer ++ [.f32, .f64]

def ofName? (name : String) : Option Primitive :=
  all.find? fun type => type.name = name

def isInteger : Primitive → Bool
  | .integer _ => true
  | .f32 | .f64 => false

def isSigned : Primitive → Bool
  | .integer type => type.signed
  | .f32 | .f64 => false

/-- Whether a field of this type may supply the size of another. -/
def isReferenceable (type : Primitive) : Bool :=
  type.isInteger && decide (8 * type.width ≤ Value.maxSizeBits)

def value (type : Primitive) (pattern : Nat) : Value :=
  match type with
  | .integer type => type.value pattern
  | .f32 => .f32 (.ofSinglePattern pattern)
  | .f64 => .f64 (.ofPattern pattern)

def read (type : Primitive) (order : ByteOrder) (bytes : Bytes) (offset : Int) :
    Except Fault Value :=
  if 0 ≤ offset ∧ offset + type.width ≤ bytes.size then
    let start := offset.toNat
    .ok (type.value (order.value (bytes.extract start (start + type.width)).toList))
  else .error .outsideBytes

/-- Reads a type given by its name; a name that is none is refused before the offset is looked at.
-/
def readNamed (name : String) (order : ByteOrder) (bytes : Bytes) (offset : Int) :
    Except Fault Value :=
  match ofName? name with
  | some type => type.read order bytes offset
  | none => .error .unknownWidth

end Primitive

end Carve
