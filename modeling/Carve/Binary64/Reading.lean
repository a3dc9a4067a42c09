import Carve.Binary64
import Carve.Text

namespace Carve.Binary64

/-- A base mark and the digits behind it. -/
def ofMarked? : List Char → Option Binary64
  | '0' :: mark :: digits =>
      let base? :=
        match mark with
        | 'x' | 'X' => some 16
        | 'o' | 'O' => some 8
        | 'b' | 'B' => some 2
        | _ => none
      base?.bind fun base =>
        if digits.isEmpty then none
        else (Text.digitValues? base digits).map fun values =>
          ofRatio false (Text.ofDigits base values) 1
  | _ => none

/-- The power of ten behind the digits: nothing, or a mark, an optional sign and at least one digit.
-/
def decimalExponent? : List Char → Option Int
  | [] => some 0
  | mark :: rest =>
      if mark = 'e' ∨ mark = 'E' then
        let (negative, digits) :=
          match rest with
          | '-' :: digits => (true, digits)
          | '+' :: digits => (false, digits)
          | digits => (false, digits)
        if digits.isEmpty || !digits.all Text.isDecimalDigit then none
        else
          let magnitude : Int := Text.ofDecimalDigits digits
          some (if negative then -magnitude else magnitude)
      else none

/-- Digits with an optional point before, between or behind them, then an optional exponent. -/
def ofUnsigned? (negative : Bool) (chars : List Char) : Option Binary64 :=
  if chars = "Infinity".toList then some (.infinite negative)
  else
    let whole := chars.takeWhile Text.isDecimalDigit
    let behind := chars.dropWhile Text.isDecimalDigit
    let (fraction, tail) :=
      match behind with
      | '.' :: rest => (rest.takeWhile Text.isDecimalDigit, rest.dropWhile Text.isDecimalDigit)
      | rest => ([], rest)
    if whole.isEmpty && fraction.isEmpty then none
    else (decimalExponent? tail).map fun exponent =>
      ofDecimal negative (Text.ofDecimalDigits (whole ++ fraction)) (exponent - fraction.length)

/-- The number that a text spells, `nan` if it spells none. -/
def ofText (text : String) : Binary64 :=
  let chars := Text.trim text.toList
  if chars.isEmpty then zero
  else
    match ofMarked? chars with
    | some number => number
    | none =>
        let signed :=
          match chars with
          | '-' :: rest => ofUnsigned? true rest
          | '+' :: rest => ofUnsigned? false rest
          | rest => ofUnsigned? false rest
        signed.getD .nan

end Carve.Binary64
