import ScriptSyntax.Lexeme.Basic
import ScriptSyntax.Text.Character

/-! Backslash escapes: four-digit code points, used in names and strings, and all that
a string allows besides. -/
namespace ScriptSyntax

/-- The code spelled by a backslash, a `u` and four hexadecimal digits at the head. -/
def unicodeEscape? : List Char → Option Nat
  | '\\' :: 'u' :: rest => hexNumber? 4 rest
  | _ => none

/-- The length of such an escape. -/
def unicodeEscapeLength : Nat := 6

/-- The character spelled by a high surrogate and an escaped low one at the head. -/
def surrogatePair? (high : Nat) (text : List Char) : Option Char := do
  guard (0xd800 ≤ high ∧ high < 0xdc00)
  let low ← unicodeEscape? text
  guard (0xdc00 ≤ low ∧ low < 0xe000)
  scalar? (0x10000 + (high - 0xd800) * 0x400 + (low - 0xdc00))

/-- One escape in a string. -/
structure Escape where
  /-- How many characters it takes after the backslash. -/
  width : Nat
  value : List Char := []
  problem : Option ProblemKind := none
  /-- The escape hides a line terminator, so a line begins after it. -/
  breaksLine : Bool := false
  deriving DecidableEq, Repr

namespace Escape

/-- The letters that stand for control characters. -/
def control? : Char → Option Char
  | 'b' => some '\x08'
  | 't' => some '\t'
  | 'n' => some '\n'
  | 'v' => some '\x0b'
  | 'f' => some '\x0c'
  | 'r' => some '\r'
  | _ => none

/-- A code of exactly `count` hexadecimal digits after `marker`. Without the digits
the backslash and the marker stand for themselves. -/
def ofHex (marker : Char) (count : Nat) (rest : List Char) : Escape :=
  match hexNumber? count rest with
  | none => { width := 1, value := ['\\', marker], problem := some .badHexEscape }
  | some code =>
    match surrogatePair? code (rest.drop count) with
    | some c => { width := 1 + count + unicodeEscapeLength, value := [c] }
    | none => { width := 1 + count, value := [(scalar? code).getD replacementCharacter] }

/-- An octal code: up to three digits when the first is at most three, else up to two.
A zero alone, with no decimal digit after it, is the null character and not deprecated. -/
def ofOctal (first : Char) (rest : List Char) : Escape :=
  let further := (rest.take (if first ≤ '3' then 2 else 1)).takeWhile isOctalDigit
  let code := (first :: further).foldl (fun sum c => sum * 8 + digitValue c) 0
  let isNull := first == '0' && further.isEmpty && !rest.head?.any isDecimalDigit
  { width := 1 + further.length
    value := [Char.ofNat code]
    problem := if isNull then none else some .octalDeprecated }

/-- The escape spelled by the characters after a backslash. A line terminator is
swallowed; a character with no meaning of its own stands for itself. -/
def read : List Char → Escape
  | [] => { width := 0 }
  | '\r' :: '\n' :: _ => { width := 2, breaksLine := true }
  | c :: rest =>
    match control? c with
    | some control => { width := 1, value := [control] }
    | none =>
      if c == 'x' then ofHex c 2 rest
      else if c == 'u' then ofHex c 4 rest
      else if isOctalDigit c then ofOctal c rest
      else if isLineTerminator c then { width := 1, breaksLine := true }
      else { width := 1, value := [c] }

end Escape

end ScriptSyntax
