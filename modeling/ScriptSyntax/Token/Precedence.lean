import ScriptSyntax.Token.Kind

/-! How tightly operators between two operands bind, and to which side. -/
namespace ScriptSyntax

/-- Binding strength, weakest first. -/
inductive Precedence where
  | comma | assignment | conditional | logicalOr | logicalAnd | bitwiseOr | bitwiseXor
  | bitwiseAnd | equality | relational | shift | additive | multiplicative
  deriving DecidableEq, Repr

inductive Associativity where
  | left | right
  deriving DecidableEq, Repr

namespace Precedence

/-- All classes, weakest first. -/
def all : List Precedence :=
  [comma, assignment, conditional, logicalOr, logicalAnd, bitwiseOr, bitwiseXor,
   bitwiseAnd, equality, relational, shift, additive, multiplicative]

/-- The place of a class, the weakest having place zero. -/
def rank (precedence : Precedence) : Nat := all.idxOf precedence

def name : Precedence → String
  | comma => "Comma"
  | assignment => "Assignment"
  | conditional => "Conditional"
  | logicalOr => "LogicalOr"
  | logicalAnd => "LogicalAnd"
  | bitwiseOr => "BitwiseOr"
  | bitwiseXor => "BitwiseXor"
  | bitwiseAnd => "BitwiseAnd"
  | equality => "Equality"
  | relational => "Relational"
  | shift => "Shift"
  | additive => "Additive"
  | multiplicative => "Multiplicative"

/-- Assignments and conditionals group to the right, all else to the left. -/
def associativity : Precedence → Associativity
  | assignment | conditional => .right
  | _ => .left

end Precedence

def Associativity.name : Associativity → String
  | .left => "Left"
  | .right => "Right"

/-- The binding strength of a mark that stands between operands. -/
def Punctuator.precedence? : Punctuator → Option Precedence
  | comma => some .comma
  | assign | plusAssign | minusAssign | multiplyAssign | divideAssign | moduloAssign
  | bitwiseAndAssign | bitwiseOrAssign | bitwiseXorAssign | leftShiftAssign
  | rightShiftAssign | unsignedRightShiftAssign => some .assignment
  | conditionalIf => some .conditional
  | logicalOr => some .logicalOr
  | logicalAnd => some .logicalAnd
  | bitwiseOr => some .bitwiseOr
  | bitwiseXor => some .bitwiseXor
  | bitwiseAnd => some .bitwiseAnd
  | equal | notEqual | strictEqual | strictNotEqual => some .equality
  | lessThan | lessThanEqual | greaterThan | greaterThanEqual => some .relational
  | leftShift | rightShift | unsignedRightShift => some .shift
  | plus | minus => some .additive
  | multiply | divide | modulo => some .multiplicative
  | _ => none

namespace TokenKind

/-- The binding strength of a token that stands between operands. -/
def precedence? : TokenKind → Option Precedence
  | punctuator p => p.precedence?
  | word .instanceOfWord | word .inWord => some .relational
  | _ => Option.none

/-- A binary operator proper: neither an assignment, nor a comma, nor a question mark. -/
def isBinaryOperator (kind : TokenKind) : Bool :=
  match kind.precedence? with
  | Option.none => false
  | some precedence =>
    precedence != .comma && precedence != .assignment && precedence != .conditional

end TokenKind

end ScriptSyntax
