import Carve.Binary64

namespace Carve

/-- The number `digits * 10 ^ exponent`. -/
structure Decimal where
  digits : Nat
  exponent : Int
deriving Repr, DecidableEq

namespace Decimal

/-- The same number without zeros at the end of its digits, at most `count` of them. -/
def strip : Nat → Decimal → Decimal
  | 0, decimal => decimal
  | count + 1, decimal =>
      if decimal.digits % 10 = 0 ∧ decimal.digits ≠ 0 then
        strip count ⟨decimal.digits / 10, decimal.exponent + 1⟩
      else decimal

/-- Which numbers are written positionally; all others take an exponent. -/
structure Style where
  /-- The most digits before the point. -/
  wholeDigits : Nat
  /-- The most zeros directly behind the point. -/
  leadingZeros : Nat

def zeros (count : Nat) : List Char := List.replicate count '0'

def scientific (first : Char) (rest : List Char) (exponent : Int) : List Char :=
  let fraction := if rest.isEmpty then [] else '.' :: rest
  let sign := if exponent < 0 then '-' else '+'
  first :: fraction ++ 'e' :: sign :: Nat.toDigits 10 exponent.natAbs

def render (style : Style) (decimal : Decimal) : List Char :=
  let digits := Nat.toDigits 10 decimal.digits
  let point : Int := digits.length + decimal.exponent
  if digits.length ≤ point ∧ point ≤ style.wholeDigits then
    digits ++ zeros (point.toNat - digits.length)
  else if 0 < point ∧ point ≤ style.wholeDigits then
    digits.take point.toNat ++ '.' :: digits.drop point.toNat
  else if -(style.leadingZeros : Int) ≤ point ∧ point ≤ 0 then
    '0' :: '.' :: zeros (-point).toNat ++ digits
  else
    scientific (digits.headD '0') digits.tail (point - 1)

end Decimal

namespace Binary64

/-- A positive number as a quotient, with the interval that rounds to it in quarter steps. -/
structure Target where
  numerator : Nat
  denominator : Nat
  lowest : Nat
  highest : Nat
  closed : Bool

namespace Target

def ofFields (exponent fraction : Nat) : Target :=
  let significand := significandOf exponent fraction
  let scale := scaleOf exponent
  let step := 2 ^ scale.toNat
  let finerBelow := decide (fraction = 0 ∧ 1 < exponent)
  { numerator := significand * step
    denominator := 2 ^ (-scale).toNat
    lowest := (4 * significand - if finerBelow then 1 else 2) * step
    highest := (4 * significand + 2) * step
    closed := decide (significand % 2 = 0) }

/-- Whether `digits * 10 ^ exponent` lies in the interval. -/
def admits (target : Target) (digits : Nat) (exponent : Int) : Bool :=
  let point := 4 * (digits * 10 ^ exponent.toNat) * target.denominator
  let unit := 10 ^ (-exponent).toNat
  if target.closed then
    decide (target.lowest * unit ≤ point ∧ point ≤ target.highest * unit)
  else
    decide (target.lowest * unit < point ∧ point < target.highest * unit)

/-- The number of digits before the point, or minus the number of zeros behind it: the least `place`
with the number below `10 ^ place`. -/
def place (target : Target) : Int :=
  let whole := target.numerator / target.denominator
  if whole ≠ 0 then (Nat.toDigits 10 whole).length
  else
    let zeros := (List.range 400).find? (fun count =>
      decide (target.denominator ≤ target.numerator * 10 ^ (count + 1)))
    Int.negOfNat (zeros.getD 0)

/-- Of the number's two neighbours among the multiples of `10 ^ exponent`, the nearer one in the
interval; the even one of two at the same distance. -/
def onGrid? (target : Target) (exponent : Int) : Option Decimal :=
  let numerator := target.numerator * 10 ^ (-exponent).toNat
  let denominator := target.denominator * 10 ^ exponent.toNat
  let below := numerator / denominator
  let nearer := Number.nearest numerator denominator
  let farther := if nearer = below then below + 1 else below
  if target.admits nearer exponent then some ⟨nearer, exponent⟩
  else if target.admits farther exponent then some ⟨farther, exponent⟩
  else none

/-- Seventeen digits always read back, so the search ends on a hit. -/
def shortest (target : Target) : Decimal :=
  let place := target.place
  let found := (List.range 17).findSome? (fun count => target.onGrid? (place - (count + 1 : Nat)))
  (found.getD ⟨0, 0⟩).strip 20

end Target

/-- The shortest decimal that reads back as the positive number with these fields. -/
def shortest (exponent fraction : Nat) : Decimal := (Target.ofFields exponent fraction).shortest

def style : Decimal.Style := { wholeDigits := 21, leadingZeros := 5 }

/-- Shortest digits, written positionally from 10^-6 up to 10^21 and with an exponent outside that
range.  Zero has no sign. -/
def text : Binary64 → String
  | .finite negative exponent fraction =>
      if exponent.val = 0 ∧ fraction.val = 0 then "0"
      else
        let digits := (shortest exponent.val fraction.val).render style
        String.ofList (if negative then '-' :: digits else digits)
  | .infinite negative => if negative then "-Infinity" else "Infinity"
  | .nan => "NaN"

end Binary64

/-- The text of a plain number. -/
def Number.text (value : Int) : String := (Binary64.ofInt value).text

end Carve
