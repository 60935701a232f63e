import ScriptSyntax.Number.Binary64
import ScriptSyntax.Text.Character

/-! Numbers in JSON text. Integers of 64 bits are kept; any other number is the
leading digits that fit 64 bits, scaled once by a power of ten. -/
namespace ScriptSyntax.Json

/-- Why a text cannot be read on. -/
inductive Fault where
  /-- A character that cannot stand there. -/
  | malformed
  /-- The text ends too early. -/
  | endsEarly
  deriving DecidableEq, Repr

/-- The fault of a text that is not what was expected at its head. -/
def Fault.at (text : List Char) : Fault := if text.isEmpty then .endsEarly else .malformed

/-- A number as read. -/
inductive Numeral where
  | integer (value : Int)
  | number (value : Binary64)
  deriving DecidableEq, Repr

namespace Numeral

/-- The largest unsigned integer of 64 bits. -/
def largest : Nat := Nat.pow 2 64 - 1

/-- Take digits onto `value` while it stays within 64 bits: the value, and how many
digits did not fit. -/
def gather (value : Nat) : List Char → Nat × Nat
  | [] => (value, 0)
  | c :: rest =>
    let next := value * 10 + digitValue c
    if next ≤ largest then gather next rest else (value, rest.length + 1)

/-- A positive number as a quotient of integers, multiplied or divided by a power of
ten that is itself rounded. -/
def scaleOnce (x : Binary64) (exponent : Int) : Binary64 :=
  let quotient (y : Binary64) : Nat × Nat :=
    if 0 ≤ y.scale then (y.significand * Nat.pow 2 y.scale.toNat, 1)
    else (y.significand, Nat.pow 2 (-y.scale).toNat)
  let power := quotient (.ofNat (Nat.pow 10 exponent.natAbs))
  let value := quotient x
  if 0 ≤ exponent then .ofQuotient (value.1 * power.1) (value.2 * power.2)
  else .ofQuotient (value.1 * power.2) (value.2 * power.1)

/-- Scale by any power of ten, in steps of at most 308 places downwards; nothing when
the result is too large. -/
def scaled? (x : Binary64) (exponent : Int) : Option Binary64 :=
  if x = .zero then some .zero
  else if 308 < exponent then none
  else if exponent < -1000 then some .zero
  else
    let steps := (exponent.natAbs - 1) / 308
    let reduced := if 0 ≤ exponent then x
      else (List.range steps).foldl (fun value _ => scaleOnce value (-308)) x
    let result := scaleOnce reduced (if 0 ≤ exponent then exponent else exponent + 308 * steps)
    if result.isFinite then some result else none

/-- The number with these digits: before the point, after it, and the exponent. Digits
are taken on either side of the point as long as they fit. -/
def ofParts? (whole fraction : List Char) (exponent : Int) : Option Binary64 :=
  let (leading, dropped) := gather 0 whole
  let (value, unused) := gather leading fraction
  scaled? (.ofNat value) (exponent + dropped - (fraction.length - unused : Nat))

/-- The digits at the head, of which there must be one. -/
def digits (text : List Char) : Except Fault (List Char × List Char) :=
  match text.span isDecimalDigit with
  | ([], rest) => .error (.at rest)
  | found => .ok found

/-- The digits after a point, if there is a point. -/
def fraction : List Char → Except Fault (List Char × List Char)
  | '.' :: rest => digits rest
  | text => .ok ([], text)

/-- The exponent, if there is one. -/
def exponent? : List Char → Except Fault (Option Int × List Char)
  | [] => .ok (none, [])
  | c :: rest => do
    if c == 'e' || c == 'E' then
      let (sign, rest) : Int × List Char := match rest with
        | '+' :: rest => (1, rest)
        | '-' :: rest => (-1, rest)
        | rest => (1, rest)
      let (found, rest) ← digits rest
      return (some (sign * found.foldl (fun value c => value * 10 + digitValue c) 0), rest)
    else return (none, c :: rest)

/-- An integer that fits 64 bits; a negative zero and larger ones are no integers. -/
def integer? (negative : Bool) (whole : List Char) : Option Int :=
  let (value, dropped) := gather 0 whole
  if dropped ≠ 0 then none
  else if !negative then some value
  else if value = 0 ∨ Nat.pow 2 63 < value then none
  else some (-value)

/-- The number at the head of a text whose minus sign, if any, is already read. -/
def read (negative : Bool) (text : List Char) : Except Fault (Numeral × List Char) := do
  let (whole, afterWhole) ← digits text
  if whole.head? = some '0' ∧ whole.length ≠ 1 then throw .malformed
  let (fraction, afterFraction) ← fraction afterWhole
  let (exponent, rest) ← exponent? afterFraction
  let plain := afterFraction.length = afterWhole.length ∧ exponent.isNone
  match if plain then integer? negative whole else none with
  | some value => return (.integer value, rest)
  | none =>
    match ofParts? whole fraction (exponent.getD 0) with
    | none => throw .malformed
    | some value => return (.number (if negative then value.negate else value), rest)

end Numeral

end ScriptSyntax.Json
