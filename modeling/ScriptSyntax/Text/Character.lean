import ScriptSyntax.Text.IdentifierRanges

/-! The classes of characters that decide where a token ends. -/
namespace ScriptSyntax

/-- Line feed, carriage return, line separator, paragraph separator. -/
def isLineTerminator (c : Char) : Bool :=
  c == '\n' || c == '\r' || c == '\u2028' || c == '\u2029'

/-- Blank space inside a line: tab, vertical tab, form feed, the byte order mark and
every space separator. -/
def isBlank (c : Char) : Bool :=
  c == ' ' || c == '\t' || c == '\x0b' || c == '\x0c' || c == '\u00a0' || c == '\ufeff' ||
  c == '\u1680' || ('\u2000' ≤ c && c ≤ '\u200a') || c == '\u202f' || c == '\u205f' ||
  c == '\u3000'

def isDecimalDigit (c : Char) : Bool := '0' ≤ c && c ≤ '9'

def isOctalDigit (c : Char) : Bool := '0' ≤ c && c ≤ '7'

/-- The value of a decimal or octal digit. -/
def digitValue (c : Char) : Nat := c.toNat - '0'.toNat

/-- The value of a hexadecimal digit in either case. -/
def hexValue? (c : Char) : Option Nat :=
  if '0' ≤ c && c ≤ '9' then some (c.toNat - '0'.toNat)
  else if 'a' ≤ c && c ≤ 'f' then some (c.toNat - 'a'.toNat + 10)
  else if 'A' ≤ c && c ≤ 'F' then some (c.toNat - 'A'.toNat + 10)
  else none

def isHexDigit (c : Char) : Bool := (hexValue? c).isSome

def isAscii (c : Char) : Bool := c.toNat < 128

def isAsciiLower (c : Char) : Bool := 'a' ≤ c && c ≤ 'z'

def isAsciiLetter (c : Char) : Bool := isAsciiLower c || ('A' ≤ c && c ≤ 'Z')

def isAsciiIdentifierStart (c : Char) : Bool := isAsciiLetter c || c == '_' || c == '$'

def isAsciiIdentifierPart (c : Char) : Bool := isAsciiIdentifierStart c || isDecimalDigit c

/-- Whether a character may begin an identifier. -/
def isIdentifierStart (c : Char) : Bool :=
  if isAscii c then isAsciiIdentifierStart c else identifierStartRanges.contains c

/-- Whether a character may continue an identifier. -/
def isIdentifierPart (c : Char) : Bool :=
  if isAscii c then isAsciiIdentifierPart c
  else identifierStartRanges.contains c || identifierContinueRanges.contains c

theorem isIdentifierPart_of_isIdentifierStart {c : Char} (starts : isIdentifierStart c) :
    isIdentifierPart c := by
  unfold isIdentifierStart at starts
  unfold isIdentifierPart
  split <;> simp_all [isAsciiIdentifierPart]

/-- The number spelled by the first `count` characters of `text`, when they are all
hexadecimal digits. -/
def hexNumber? (count : Nat) (text : List Char) : Option Nat := do
  let digits ← (text.take count).mapM hexValue?
  if digits.length = count then some (digits.foldl (16 * · + ·) 0) else none

/-- The character with this code point, unless it is a surrogate or too large. -/
def scalar? (code : Nat) : Option Char :=
  if h : code.isValidChar then some (Char.ofNatAux code h) else none

/-- What a surrogate that cannot be a character is read as. -/
def replacementCharacter : Char := '\ufffd'

end ScriptSyntax
