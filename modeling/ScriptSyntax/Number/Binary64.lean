/-! Binary floating point numbers of 64 bits, computed in exact integer arithmetic.
Rounding goes to the nearest number, and a tie to the one with an even last bit. -/
namespace ScriptSyntax

/-- A number by its bits: sign, eleven bits of exponent, 52 of fraction. -/
structure Binary64 where
  bits : UInt64
  deriving DecidableEq, Repr, Inhabited

/-- The integer nearest to a quotient, a tie going to the even one. -/
def roundQuotient (numerator denominator : Nat) : Nat :=
  let quotient := numerator / denominator
  let remainder := numerator % denominator
  if 2 * remainder < denominator then quotient
  else if denominator < 2 * remainder then quotient + 1
  else quotient + quotient % 2

/-- An integer rounded to 53 significant bits. -/
def roundTo53Bits (n : Nat) : Nat :=
  let excess := n.log2 - 52
  roundQuotient n (Nat.pow 2 excess) * Nat.pow 2 excess

namespace Binary64

def zero : Binary64 := ⟨0⟩

def infinity : Binary64 := ⟨0x7ff0000000000000⟩

def negate (x : Binary64) : Binary64 := ⟨x.bits ^^^ 0x8000000000000000⟩

def isNegative (x : Binary64) : Bool := 0x8000000000000000 ≤ x.bits

/-- The eleven bits of the exponent. -/
def exponentField (x : Binary64) : Nat := (x.bits.toNat / Nat.pow 2 52) % Nat.pow 2 11

/-- The 52 bits of the fraction. -/
def fractionField (x : Binary64) : Nat := x.bits.toNat % Nat.pow 2 52

def isFinite (x : Binary64) : Bool := x.exponentField < 2047

def isNaN (x : Binary64) : Bool := x.exponentField == 2047 && x.fractionField != 0

/-- A finite number is its significand times two to the power of its scale. -/
def significand (x : Binary64) : Nat :=
  if x.exponentField = 0 then x.fractionField else Nat.pow 2 52 + x.fractionField

def scale (x : Binary64) : Int := (max x.exponentField 1 : Int) - 1075

/-- The number with a significand below `2 ^ 53` and a scale of at least -1074, or the
significand `2 ^ 53` reached by rounding up. Adding the significand to the exponent
carries into it exactly when the significand's highest bit is set. -/
def assemble (significand : Nat) (scale : Int) : Binary64 :=
  let bits := (scale + 1074).toNat * Nat.pow 2 52 + significand
  if bits < 0x7ff0000000000000 then ⟨bits.toUInt64⟩ else infinity

/-- The scale at which a quotient has 53 bits before the binary point, or the least
scale there is. -/
def scaleFor (numerator denominator : Nat) : Int :=
  let guess : Int := (numerator.log2 : Int) - denominator.log2 - 53
  let tooSmall :=
    if 0 ≤ guess then denominator * Nat.pow 2 (53 + guess.toNat) ≤ numerator
    else denominator * Nat.pow 2 53 ≤ numerator * Nat.pow 2 (-guess).toNat
  max (if tooSmall then guess + 1 else guess) (-1074)

/-- The number nearest to a positive quotient, or zero. -/
def ofQuotient (numerator denominator : Nat) : Binary64 :=
  if numerator = 0 then zero
  else
    let scale := scaleFor numerator denominator
    let significand :=
      if 0 ≤ scale then roundQuotient numerator (denominator * Nat.pow 2 scale.toNat)
      else roundQuotient (numerator * Nat.pow 2 (-scale).toNat) denominator
    assemble significand scale

/-- The number nearest to an integer. -/
def ofNat (n : Nat) : Binary64 := ofQuotient n 1

/-- The number nearest to `digits` times ten to the power of `exponent`. Far outside
the range of exponents the answer is known without the power. -/
def ofDecimal (digits : Nat) (exponent : Int) : Binary64 :=
  let length : Int := (Nat.toDigits 10 digits).length
  if digits = 0 then zero
  else if 310 < length + exponent then infinity
  else if length + exponent < -330 then zero
  else if 0 ≤ exponent then ofQuotient (digits * Nat.pow 10 exponent.toNat) 1
  else ofQuotient digits (Nat.pow 10 (-exponent).toNat)

/-- Sixteen hexadecimal digits, the same for every NaN. -/
def bitsText (x : Binary64) : String :=
  if x.isNaN then "nan"
  else
    let digits := Nat.toDigits 16 x.bits.toNat
    String.ofList (List.replicate (16 - digits.length) '0' ++ digits)

/-- The value of a hexadecimal digit. -/
def bitsDigit? (c : Char) : Option Nat :=
  if c.isDigit then some (c.toNat - '0'.toNat)
  else if 'a' ≤ c ∧ c ≤ 'f' then some (c.toNat - 'a'.toNat + 10)
  else none

/-- The number with these bits. -/
def ofBitsText? (text : String) : Option Binary64 :=
  if text = "nan" then some ⟨0x7ff8000000000000⟩
  else do
    let digits ← text.toList.mapM bitsDigit?
    return ⟨(digits.foldl (16 * · + ·) 0).toUInt64⟩

end Binary64

end ScriptSyntax
