/-! Operators and punctuation. -/
namespace ScriptSyntax

/-- An operator or punctuation mark. -/
inductive Punctuator where
  | leftCurly | rightCurly | leftParenthesis | rightParenthesis | leftBracket | rightBracket
  | semicolon | comma | accessField | conditionalIf | colon | logicalNot | bitwiseNot | increment
  | decrement | logicalAnd | logicalOr | bitwiseAnd | bitwiseOr | bitwiseXor | equal | notEqual
  | strictEqual | strictNotEqual | lessThan | lessThanEqual | greaterThan | greaterThanEqual
  | leftShift | rightShift | unsignedRightShift | plus | minus | multiply | divide | modulo
  | assign | plusAssign | minusAssign | multiplyAssign | divideAssign | moduloAssign
  | bitwiseAndAssign | bitwiseOrAssign | bitwiseXorAssign | leftShiftAssign | rightShiftAssign
  | unsignedRightShiftAssign
  deriving DecidableEq, Repr, Inhabited

namespace Punctuator

/-- The spelling in source text. -/
def spelling : Punctuator → String
  | leftCurly => "\x7b"
  | rightCurly => "\x7d"
  | leftParenthesis => "("
  | rightParenthesis => ")"
  | leftBracket => "["
  | rightBracket => "]"
  | semicolon => ";"
  | comma => ","
  | accessField => "."
  | conditionalIf => "?"
  | colon => ":"
  | logicalNot => "!"
  | bitwiseNot => "~"
  | increment => "++"
  | decrement => "--"
  | logicalAnd => "&&"
  | logicalOr => "||"
  | bitwiseAnd => "&"
  | bitwiseOr => "|"
  | bitwiseXor => "^"
  | equal => "=="
  | notEqual => "!="
  | strictEqual => "==="
  | strictNotEqual => "!=="
  | lessThan => "<"
  | lessThanEqual => "<="
  | greaterThan => ">"
  | greaterThanEqual => ">="
  | leftShift => "<<"
  | rightShift => ">>"
  | unsignedRightShift => ">>>"
  | plus => "+"
  | minus => "-"
  | multiply => "*"
  | divide => "/"
  | modulo => "%"
  | assign => "="
  | plusAssign => "+="
  | minusAssign => "-="
  | multiplyAssign => "*="
  | divideAssign => "/="
  | moduloAssign => "%="
  | bitwiseAndAssign => "&="
  | bitwiseOrAssign => "|="
  | bitwiseXorAssign => "^="
  | leftShiftAssign => "<<="
  | rightShiftAssign => ">>="
  | unsignedRightShiftAssign => ">>>="

/-- The name in listings. -/
def name : Punctuator → String
  | leftCurly => "LeftCurly"
  | rightCurly => "RightCurly"
  | leftParenthesis => "LeftParenthesis"
  | rightParenthesis => "RightParenthesis"
  | leftBracket => "LeftBracket"
  | rightBracket => "RightBracket"
  | semicolon => "Semicolon"
  | comma => "Comma"
  | accessField => "AccessField"
  | conditionalIf => "ConditionalIf"
  | colon => "Colon"
  | logicalNot => "LogicalNot"
  | bitwiseNot => "BitwiseNot"
  | increment => "Increment"
  | decrement => "Decrement"
  | logicalAnd => "LogicalAnd"
  | logicalOr => "LogicalOr"
  | bitwiseAnd => "BitwiseAnd"
  | bitwiseOr => "BitwiseOr"
  | bitwiseXor => "BitwiseXor"
  | equal => "Equal"
  | notEqual => "NotEqual"
  | strictEqual => "StrictEqual"
  | strictNotEqual => "StrictNotEqual"
  | lessThan => "LessThan"
  | lessThanEqual => "LessThanEqual"
  | greaterThan => "GreaterThan"
  | greaterThanEqual => "GreaterThanEqual"
  | leftShift => "LeftShift"
  | rightShift => "RightShift"
  | unsignedRightShift => "UnsignedRightShift"
  | plus => "Plus"
  | minus => "Minus"
  | multiply => "Multiply"
  | divide => "Divide"
  | modulo => "Modulo"
  | assign => "Assign"
  | plusAssign => "PlusAssign"
  | minusAssign => "MinusAssign"
  | multiplyAssign => "MultiplyAssign"
  | divideAssign => "DivideAssign"
  | moduloAssign => "ModuloAssign"
  | bitwiseAndAssign => "BitwiseAndAssign"
  | bitwiseOrAssign => "BitwiseOrAssign"
  | bitwiseXorAssign => "BitwiseXorAssign"
  | leftShiftAssign => "LeftShiftAssign"
  | rightShiftAssign => "RightShiftAssign"
  | unsignedRightShiftAssign => "UnsignedRightShiftAssign"

/-- The plain assignment and the compound ones. -/
def isAssignment : Punctuator → Bool
  | assign | plusAssign | minusAssign | multiplyAssign | divideAssign | moduloAssign
  | bitwiseAndAssign | bitwiseOrAssign | bitwiseXorAssign | leftShiftAssign | rightShiftAssign
  | unsignedRightShiftAssign => true
  | _ => false

/-- All marks in declaration order. -/
def all : List Punctuator := [
  leftCurly, rightCurly, leftParenthesis, rightParenthesis, leftBracket, rightBracket, semicolon,
  comma, accessField, conditionalIf, colon, logicalNot, bitwiseNot, increment, decrement,
  logicalAnd, logicalOr, bitwiseAnd, bitwiseOr, bitwiseXor, equal, notEqual, strictEqual,
  strictNotEqual, lessThan, lessThanEqual, greaterThan, greaterThanEqual, leftShift, rightShift,
  unsignedRightShift, plus, minus, multiply, divide, modulo, assign, plusAssign, minusAssign,
  multiplyAssign, divideAssign, moduloAssign, bitwiseAndAssign, bitwiseOrAssign,
  bitwiseXorAssign, leftShiftAssign, rightShiftAssign, unsignedRightShiftAssign]

end Punctuator

end ScriptSyntax
