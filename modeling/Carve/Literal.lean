import Carve.Bytes
import Carve.Text
import Carve.Text.LowerCase

/-!
The literals of a document.

A hex literal is `0x` and one to 32 hex digits, 128 bits at most; offsets may carry a minus sign.
An identifier starts with a letter or an underscore and goes on with letters, digits, underscores or
hyphens.
-/

namespace Carve

namespace Literal

inductive Error where
  | malformedHex (literal : String)
  | malformedSignedHex (literal : String)
  | unknownByteOrder (keyword : String)
  | unsafeOffset (literal : String)
deriving Repr, DecidableEq

/-- The text that an error is about. -/
def Error.literal : Error → String
  | .malformedHex literal | .malformedSignedHex literal | .unknownByteOrder literal
  | .unsafeOffset literal => literal

def Error.message : Error → String
  | .malformedHex literal => s!"Invalid hex literal \"{literal}\""
  | .malformedSignedHex literal => s!"Invalid signed hex literal \"{literal}\""
  | .unknownByteOrder keyword => s!"Unknown endianness \"{keyword}\""
  | .unsafeOffset literal => s!"Literal \"{literal}\" is too large for an offset"

def maxDigits : Nat := 32

/-- The values of the digits of a hex literal. -/
def hexDigits? : List Char → Option (List Nat)
  | '0' :: 'x' :: digits =>
      if 1 ≤ digits.length ∧ digits.length ≤ maxDigits then Text.digitValues? 16 digits
      else none
  | _ => none

/-- Whether a literal carries a minus sign, and the values of its digits. -/
def signedHexDigits? : List Char → Option (Bool × List Nat)
  | '-' :: chars => (hexDigits? chars).map (true, ·)
  | chars => (hexDigits? chars).map (false, ·)

def isHex (literal : String) : Bool := (hexDigits? literal.toList).isSome

def isSignedHex (literal : String) : Bool := (signedHexDigits? literal.toList).isSome

def parseHex (literal : String) : Except Error Nat :=
  match hexDigits? literal.toList with
  | some digits => .ok (Text.ofDigits 16 digits)
  | none => .error (.malformedHex literal)

def parseSignedHex (literal : String) : Except Error Int :=
  match signedHexDigits? literal.toList with
  | some (negative, digits) =>
      let magnitude : Int := Text.ofDigits 16 digits
      .ok (if negative then -magnitude else magnitude)
  | none => .error (.malformedSignedHex literal)

/-- The number of bytes that a hex literal spells, zeros in front included. -/
def hexByteLength (literal : String) : Except Error Nat :=
  match hexDigits? literal.toList with
  | some digits => .ok ((digits.length + 1) / 2)
  | none => .error (.malformedHex literal)

def startsIdentifier (char : Char) : Bool := char.isAlpha || char = '_'

def continuesIdentifier (char : Char) : Bool :=
  startsIdentifier char || Text.isDecimalDigit char || char = '-'

def isIdentifier (name : String) : Bool :=
  match name.toList with
  | [] => false
  | first :: rest => startsIdentifier first && rest.all continuesIdentifier

/-- A byte order from its keyword in any letter case. -/
def parseByteOrder (keyword : String) : Except Error ByteOrder :=
  let small := Text.lower keyword
  if small = "little" then .ok .little
  else if small = "big" then .ok .big
  else .error (.unknownByteOrder keyword)

/-- An offset small enough for every nearby offset to be a plain number of its own. -/
def toSafeOffset (value : Int) (literal : String) : Except Error Int :=
  if value.natAbs ≤ Number.maxSafe then .ok value else .error (.unsafeOffset literal)

end Literal

end Carve
