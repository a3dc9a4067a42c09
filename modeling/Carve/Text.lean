namespace Carve.Text

/-- White space, a line end or the byte-order mark. -/
def isBlank (char : Char) : Bool :=
  let code := char.toNat
  (9 ≤ code && code ≤ 13) || code = 0x20 || code = 0xA0 || code = 0x1680 ||
    (0x2000 ≤ code && code ≤ 0x200A) || code = 0x2028 || code = 0x2029 || code = 0x202F ||
    code = 0x205F || code = 0x3000 || code = 0xFEFF

/-- Without the blanks at both ends. -/
def trim (chars : List Char) : List Char :=
  ((chars.dropWhile isBlank).reverse.dropWhile isBlank).reverse

/-- The value of a digit, letters counting on from ten. -/
def digitValue? (char : Char) : Option Nat :=
  if '0' ≤ char ∧ char ≤ '9' then some (char.toNat - 48)
  else if 'a' ≤ char ∧ char ≤ 'f' then some (char.toNat - 87)
  else if 'A' ≤ char ∧ char ≤ 'F' then some (char.toNat - 55)
  else none

/-- The values of digits that are all below `base`. -/
def digitValues? (base : Nat) (chars : List Char) : Option (List Nat) :=
  chars.mapM fun char => (digitValue? char).filter (· < base)

/-- The number that digits spell, the highest first. -/
def ofDigits (base : Nat) (digits : List Nat) : Nat :=
  digits.foldl (fun value digit => base * value + digit) 0

def isDecimalDigit (char : Char) : Bool := '0' ≤ char && char ≤ '9'

/-- The value of a text of decimal digits alone; that of no digits is 0. -/
def ofDecimalDigits (chars : List Char) : Nat :=
  ofDigits 10 (chars.map fun char => char.toNat - 48)

namespace Quoted

def hexDigit (value : Nat) : Char := (Nat.toDigits 16 value).headD '0'

/-- A quote, a backslash and the control characters below a blank are written by escapes. -/
def escape (char : Char) : List Char :=
  match char with
  | '"' => ['\\', '"']
  | '\\' => ['\\', '\\']
  | '\x08' => ['\\', 'b']
  | '\x0c' => ['\\', 'f']
  | '\n' => ['\\', 'n']
  | '\r' => ['\\', 'r']
  | '\t' => ['\\', 't']
  | char =>
      if char.toNat < 32 then
        ['\\', 'u', '0', '0', hexDigit (char.toNat / 16), hexDigit (char.toNat % 16)]
      else [char]

def encode (text : String) : String :=
  String.ofList ('"' :: text.toList.flatMap escape ++ ['"'])

end Quoted

end Carve.Text
