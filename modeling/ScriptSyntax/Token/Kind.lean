import ScriptSyntax.Token.ReservedWord
import ScriptSyntax.Token.Punctuator

/-! The kinds of token and the questions a reader of tokens asks of them. -/
namespace ScriptSyntax

/-- What a token is. -/
inductive TokenKind where
  /-- Nothing has been read yet. -/
  | none
  | endOfFile
  /-- A character that begins no token. -/
  | error
  | whiteSpace | endOfLine | lineComment | blockComment
  | identifier | numeral | stringLiteral | regularExpression
  | word (word : ReservedWord)
  | punctuator (mark : Punctuator)
  deriving DecidableEq, Repr, Inhabited

namespace TokenKind

/-- The name in listings. -/
def name : TokenKind → String
  | none => "None"
  | endOfFile => "EndOfFile"
  | error => "Error"
  | whiteSpace => "WhiteSpace"
  | endOfLine => "EndOfLine"
  | lineComment => "SingleLineComment"
  | blockComment => "MultipleLineComment"
  | identifier => "Identifier"
  | numeral => "NumericLiteral"
  | stringLiteral => "StringLiteral"
  | regularExpression => "RegularExpression"
  | word w => w.name
  | punctuator p => p.name

/-- All kinds in declaration order. -/
def all : List TokenKind :=
  [none, endOfFile, error, whiteSpace, endOfLine, lineComment, blockComment,
   identifier, numeral, stringLiteral, regularExpression] ++
  ReservedWord.all.map word ++ Punctuator.all.map punctuator

def ofName? (text : String) : Option TokenKind := all.find? fun kind => kind.name == text

/-- The place of a kind in declaration order. -/
def rank (kind : TokenKind) : Nat := all.idxOf kind

/-- The spelling of the kinds that have only one. -/
def text? : TokenKind → Option String
  | word w => some w.spelling
  | punctuator p => some p.spelling
  | _ => Option.none

/-- A word reserved in code of this strictness. -/
def isReservedWord (kind : TokenKind) (strict : Bool) : Bool :=
  match kind with
  | word w => w.isReserved strict
  | _ => false

/-- A word reserved in strict code only, and a plain identifier elsewhere. -/
def isStrictOnlyWord : TokenKind → Bool
  | word w => w.isStrictOnly
  | _ => false

/-- White space, line ends and comments. -/
def isTrivia : TokenKind → Bool
  | whiteSpace | endOfLine | lineComment | blockComment => true
  | _ => false

def isLiteral : TokenKind → Bool
  | numeral | stringLiteral | regularExpression => true
  | word .trueWord | word .falseWord | word .nullWord => true
  | _ => false

def isAssignmentOperator : TokenKind → Bool
  | punctuator p => p.isAssignment
  | _ => false

def isPunctuator : TokenKind → Bool
  | punctuator _ => true
  | _ => false

/-- Whether a slash after a token of this kind begins a regular expression rather
than a division. It does unless the token can end an operand; words reserved only in
strict code can, as they may be identifiers. -/
def allowsRegexAfter : Option TokenKind → Bool
  | Option.none => true
  | some kind => match kind with
    | identifier | numeral | stringLiteral | regularExpression => false
    | punctuator .rightParenthesis | punctuator .rightBracket | punctuator .rightCurly => false
    | punctuator .increment | punctuator .decrement => false
    | word .thisWord | word .nullWord | word .trueWord | word .falseWord
    | word .superWord => false
    | kind => !kind.isStrictOnlyWord

end TokenKind

end ScriptSyntax
