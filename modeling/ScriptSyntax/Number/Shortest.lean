import ScriptSyntax.Number.Binary64

/-! The fewest decimal digits that read back as the same number, and the two ways of
writing them. -/
namespace ScriptSyntax

/-- An integer times a power of ten. -/
structure Decimal where
  digits : Nat
  exponent : Int
  deriving DecidableEq, Repr

namespace Decimal

/-- The integer's decimal digits. -/
def digitList (decimal : Decimal) : List Char := Nat.toDigits 10 decimal.digits

/-- The same value without trailing zeros; `limit` bounds how many are removed. -/
def stripZeros (decimal : Decimal) : Nat → Decimal
  | 0 => decimal
  | limit + 1 =>
    if decimal.digits != 0 && decimal.digits % 10 == 0 then
      stripZeros ⟨decimal.digits / 10, decimal.exponent + 1⟩ limit
    else decimal

/-- How many digits stand before the decimal point, negative when zeros follow it. -/
def pointPosition (decimal : Decimal) : Int := decimal.digitList.length + decimal.exponent

def zeros (count : Int) : List Char := List.replicate count.toNat '0'

/-- All digits written out, without a point when the value is an integer. -/
def positional (decimal : Decimal) : List Char :=
  let digits := decimal.digitList
  let point := decimal.pointPosition
  if 0 ≤ decimal.exponent then digits ++ zeros decimal.exponent
  else if 0 < point then digits.take point.toNat ++ ['.'] ++ digits.drop point.toNat
  else ['0', '.'] ++ zeros (-point) ++ digits

/-- One digit, the others behind a point, and a signed power of ten. -/
def scientific (decimal : Decimal) : List Char :=
  let power := decimal.pointPosition - 1
  let mantissa := match decimal.digitList with
    | first :: rest@(_ :: _) => first :: '.' :: rest
    | digits => digits
  let sign := if power < 0 then '-' else '+'
  mantissa ++ ['e', sign] ++ Nat.toDigits 10 power.natAbs

end Decimal

namespace Binary64

/-- A finite number's size as a quotient of integers. -/
def quotient (x : Binary64) : Nat × Nat :=
  if 0 ≤ x.scale then (x.significand * Nat.pow 2 x.scale.toNat, 1)
  else (x.significand, Nat.pow 2 (-x.scale).toNat)

/-- The number's size, without its sign. -/
def magnitude (x : Binary64) : Binary64 := if x.isNegative then x.negate else x

/-- How many digits a positive quotient has before its decimal point, negative when
zeros follow it. -/
def decimalPoint (numerator denominator : Nat) : Int :=
  if denominator ≤ numerator then (Nat.toDigits 10 (numerator / denominator)).length
  else
    let length := (Nat.toDigits 10 (denominator / numerator)).length
    if numerator * Nat.pow 10 (length - 1) = denominator then 2 - (length : Int)
    else 1 - (length : Int)

/-- Of the two multiples of a power of ten next to the number, one that reads back as
it, the nearer if both do. -/
def onGrid? (x : Binary64) (exponent : Int) : Option Decimal :=
  let (numerator, denominator) := x.quotient
  let scaledNumerator := numerator * Nat.pow 10 (-exponent).toNat
  let scaledDenominator := denominator * Nat.pow 10 exponent.toNat
  let below := scaledNumerator / scaledDenominator
  let reads (digits : Nat) := decide (ofDecimal digits exponent = x)
  let nearest := roundQuotient scaledNumerator scaledDenominator
  if reads nearest then some ⟨nearest, exponent⟩
  else if reads below then some ⟨below, exponent⟩
  else if reads (below + 1) then some ⟨below + 1, exponent⟩
  else none

/-- The shortest decimal that reads back as a positive finite number; seventeen digits
always do. -/
def shortest (x : Binary64) : Decimal :=
  let (numerator, denominator) := x.quotient
  let point := decimalPoint numerator denominator
  let found := (List.range 17).findSome? fun (count : Nat) =>
    x.onGrid? (point - (count + 1))
  (found.getD ⟨0, 0⟩).stripZeros 17

/-- The decimal value of a finite number's size. -/
def decimal (x : Binary64) : Decimal :=
  if x.magnitude = zero then ⟨0, 0⟩ else x.magnitude.shortest

def signText (x : Binary64) : List Char := if x.isNegative then ['-'] else []

/-- Written out in full, with a fraction digit even for integers. -/
def fullText (x : Binary64) : String :=
  let body := x.decimal.positional
  String.ofList (x.signText ++ (if body.contains '.' then body else body ++ ['.', '0']))

/-- Written out in full from a hundred-thousandth up to sixteen integer digits, and
with a power of ten outside. -/
def compactText (x : Binary64) : String :=
  let point := x.decimal.pointPosition
  if x.magnitude = zero || (-5 < point && point ≤ 16) then x.fullText
  else String.ofList (x.signText ++ x.decimal.scientific)

end Binary64

end ScriptSyntax
