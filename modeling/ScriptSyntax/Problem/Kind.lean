/-! What can be wrong with source text, and how serious it is. None of it stops a scan. -/
namespace ScriptSyntax

inductive Severity where
  | warning | error | suggestion | message
  deriving DecidableEq, Repr, Inhabited

namespace Severity

def all : List Severity := [warning, error, suggestion, message]

def label : Severity → String
  | warning => "warning"
  | error => "error"
  | suggestion => "suggestion"
  | message => "message"

def name : Severity → String
  | warning => "Warning"
  | error => "Error"
  | suggestion => "Suggestion"
  | message => "Message"

def ofName? (text : String) : Option Severity := all.find? fun severity => severity.name == text

end Severity

/-- A fault in source text. -/
inductive ProblemKind where
  /-- A character that begins no token. -/
  | illegalCharacter
  /-- A string cut off by a line end or the end of input. -/
  | unterminatedString
  /-- The end of input inside a block comment. -/
  | unterminatedComment
  /-- A number that runs into a digit or an identifier. -/
  | badNumeral
  /-- An escape that lacks hexadecimal digits. -/
  | badHexEscape
  /-- An octal number or octal escape. -/
  | octalDeprecated
  deriving DecidableEq, Repr, Inhabited

namespace ProblemKind

def all : List ProblemKind :=
  [illegalCharacter, unterminatedString, unterminatedComment, badNumeral, badHexEscape,
   octalDeprecated]

/-- The number users know the problem by. -/
def code : ProblemKind → Nat
  | illegalCharacter => 1014
  | unterminatedString => 1015
  | unterminatedComment => 1016
  | badNumeral => 1017
  | badHexEscape => 1018
  | octalDeprecated => 1019

def ofCode? (code : Nat) : Option ProblemKind := all.find? fun kind => kind.code == code

/-- The severity unless another is asked for. -/
def severity : ProblemKind → Severity
  | octalDeprecated => .warning
  | _ => .error

def message : ProblemKind → String
  | illegalCharacter => "Invalid character"
  | unterminatedString => "Unterminated string constant"
  | unterminatedComment => "Unterminated comment"
  | badNumeral => "Invalid numeric literal"
  | badHexEscape => "Bad hexadecimal escape sequence"
  | octalDeprecated => "Octal literals and escapes are deprecated"

def name : ProblemKind → String
  | illegalCharacter => "IllegalChar"
  | unterminatedString => "UnterminatedString"
  | unterminatedComment => "UnterminatedComment"
  | badNumeral => "BadNumericLiteral"
  | badHexEscape => "BadHexEscapeSequence"
  | octalDeprecated => "OctalLiteralsDeprecated"

def ofName? (text : String) : Option ProblemKind := all.find? fun kind => kind.name == text

end ProblemKind

end ScriptSyntax
