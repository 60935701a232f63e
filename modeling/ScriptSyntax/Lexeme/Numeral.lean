import ScriptSyntax.Lexeme.Basic
import ScriptSyntax.Text.Character

/-! Numbers: hexadecimal, octal of the old kind, and decimal. -/
namespace ScriptSyntax

/-- A number without what may be stuck to its end. -/
structure Numeral where
  digits : List Char
  number : Binary64
  isOctal : Bool := false
  deriving DecidableEq, Repr

theorem isPrefix_append_of_drop {first second text : List Char} (before : first <+: text)
    (after : second <+: text.drop first.length) : first ++ second <+: text := by
  obtain ⟨rest, rfl⟩ := before
  simpa using after

namespace Numeral

/-- The value of digits read from left to right in a power-of-two base, each step
rounded to 53 bits. -/
def accumulate (base : Nat) (digits : List Nat) : Nat :=
  digits.foldl (fun value digit => roundTo53Bits (value * base + digit)) 0

/-- A zero and an `x` with the hexadecimal digits after them. Without digits only the
zero belongs to the number. -/
def ofHex (marker : Char) (rest : List Char) : Numeral :=
  let digits := rest.takeWhile isHexDigit
  if digits.isEmpty then { digits := ['0'], number := .zero }
  else
    { digits := '0' :: marker :: digits
      number := .ofNat (accumulate 16 (digits.filterMap hexValue?)) }

/-- The digits after a zero, if all of them are octal. -/
def ofOctal? (rest : List Char) : Option Numeral :=
  let digits := rest.takeWhile isDecimalDigit
  if digits.all isOctalDigit then
    some {
      digits := '0' :: digits
      number := .ofNat (accumulate 8 (digits.map digitValue))
      isOctal := true }
  else none

/-- The point and the digits after it, if there is a point. -/
def fraction : List Char → List Char
  | '.' :: rest => '.' :: rest.takeWhile isDecimalDigit
  | _ => []

/-- An exponent with at least one digit; its marker may be followed by one sign. -/
def exponent : List Char → List Char
  | [] => []
  | marker :: rest =>
    if marker == 'e' || marker == 'E' then
      let sign := (rest.take 1).takeWhile fun c => c == '+' || c == '-'
      let digits := (rest.drop sign.length).takeWhile isDecimalDigit
      if digits.isEmpty then [] else marker :: sign ++ digits
    else []

/-- The integer spelled by decimal digits. -/
def decimalValue (digits : List Char) : Nat :=
  digits.foldl (fun value c => value * 10 + digitValue c) 0

/-- The size of an exponent; once it has reached 65536, further digits are not counted. -/
def exponentSize (digits : List Char) : Nat :=
  digits.foldl (fun value c => if value < 65536 then value * 10 + digitValue c else value) 0

/-- The power of ten spelled by an exponent. -/
def exponentValue : List Char → Int
  | _ :: '-' :: digits => -(exponentSize digits : Int)
  | _ :: '+' :: digits => exponentSize digits
  | _ :: digits => exponentSize digits
  | [] => 0

/-- Digits, an optional fraction and an optional exponent. -/
def ofDecimal (text : List Char) : Numeral :=
  let whole := text.takeWhile isDecimalDigit
  let afterWhole := text.drop whole.length
  let fraction := fraction afterWhole
  let exponent := exponent (afterWhole.drop fraction.length)
  let fractionDigits := fraction.drop 1
  { digits := whole ++ fraction ++ exponent
    number := .ofDecimal (decimalValue (whole ++ fractionDigits))
      (exponentValue exponent - fractionDigits.length) }

/-- The number at the head of a text that begins with a digit, or with a point and a
digit. -/
def read (text : List Char) : Numeral :=
  match text with
  | '0' :: c :: rest =>
    if c == 'x' || c == 'X' then ofHex c rest
    else if isOctalDigit c then (ofOctal? (c :: rest)).getD (ofDecimal text)
    else ofDecimal text
  | _ => ofDecimal text

/-- What is stuck to the end of a number: the run of identifier characters after it,
if it begins with a digit or the start of an identifier. -/
def tail (rest : List Char) : List Char :=
  if rest.head?.any fun c => isDecimalDigit c || isIdentifierStart c then
    rest.takeWhile isIdentifierPart
  else []

theorem ofDecimal_digits_ne_nil {c : Char} {rest : List Char}
    (starts : isDecimalDigit c || c == '.') : (ofDecimal (c :: rest)).digits ≠ [] := by
  by_cases digit : isDecimalDigit c
  · simp [ofDecimal, digit]
  · have point : c = '.' := by simpa [digit] using starts
    subst point
    simp [ofDecimal, digit, fraction]

theorem read_digits_ne_nil {c : Char} {rest : List Char}
    (starts : isDecimalDigit c || c == '.') : (read (c :: rest)).digits ≠ [] := by
  unfold read
  split
  · split
    · unfold ofHex; dsimp only; split <;> simp
    · split
      · unfold ofOctal?; dsimp only; split
        · simp
        · exact ofDecimal_digits_ne_nil starts
      · exact ofDecimal_digits_ne_nil starts
  · exact ofDecimal_digits_ne_nil starts

theorem fraction_isPrefix (text : List Char) : fraction text <+: text := by
  unfold fraction
  split
  · exact (List.prefix_cons_inj _).mpr (List.takeWhile_prefix _)
  · exact List.nil_prefix

theorem exponent_isPrefix (text : List Char) : exponent text <+: text := by
  unfold exponent
  split
  · exact List.nil_prefix
  · next marker rest =>
    dsimp only
    repeat' split
    · exact List.nil_prefix
    · have sign : (rest.take 1).takeWhile (fun c => c == '+' || c == '-') <+: rest :=
        (List.takeWhile_prefix _).trans (List.take_prefix 1 rest)
      exact (List.prefix_cons_inj _).mpr
        (isPrefix_append_of_drop sign (List.takeWhile_prefix _))
    · exact List.nil_prefix

theorem ofDecimal_isPrefix (text : List Char) : (ofDecimal text).digits <+: text := by
  have whole : text.takeWhile isDecimalDigit <+: text := List.takeWhile_prefix _
  have withFraction := isPrefix_append_of_drop whole (fraction_isPrefix _)
  apply isPrefix_append_of_drop withFraction
  rw [List.length_append, ← List.drop_drop]
  exact exponent_isPrefix _

/-- The digits of a number are what the text begins with. -/
theorem read_isPrefix (text : List Char) : (read text).digits <+: text := by
  unfold read
  split
  · next c rest =>
    split
    · unfold ofHex
      dsimp only
      split
      · exact ⟨c :: rest, rfl⟩
      · exact (List.prefix_cons_inj _).mpr ((List.prefix_cons_inj _).mpr (List.takeWhile_prefix _))
    · split
      · unfold ofOctal?
        dsimp only
        split
        · exact (List.prefix_cons_inj _).mpr (List.takeWhile_prefix _)
        · exact ofDecimal_isPrefix _
      · exact ofDecimal_isPrefix _
  · exact ofDecimal_isPrefix _

theorem tail_isPrefix (rest : List Char) : tail rest <+: rest := by
  unfold tail
  split
  · exact List.takeWhile_prefix _
  · exact List.nil_prefix

end Numeral

/-- A number with what is stuck to it. -/
def Lexeme.numeral (text : List Char) : Lexeme × List Char :=
  let numeral := Numeral.read text
  let afterDigits := text.drop numeral.digits.length
  let tail := Numeral.tail afterDigits
  let length := numeral.digits.length + tail.length
  let taken := text.take length
  ({ kind := .numeral
     text := taken
     value := taken
     number := numeral.number
     flaws :=
       (if numeral.isOctal then [⟨.octalDeprecated, 0, numeral.digits.length⟩] else []) ++
       (if tail.isEmpty then [] else [⟨.badNumeral, 0, taken.length⟩]) },
   text.drop length)

theorem Lexeme.numeral_text_ne_nil {c : Char} {rest : List Char}
    (starts : isDecimalDigit c || c == '.') : (numeral (c :: rest)).1.text ≠ [] := by
  simp [numeral, Numeral.read_digits_ne_nil starts]

@[simp] theorem Lexeme.numeral_append (text : List Char) :
    (numeral text).1.text ++ (numeral text).2 = text := by
  simp [numeral]

end ScriptSyntax
