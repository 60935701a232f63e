import ScriptSyntax.Tree.Basic

/-! Which expressions have a value that could be computed ahead of time. -/
namespace ScriptSyntax

/-- What the form of a node alone says about its value. -/
inductive Constancy where
  | always
  | never
  /-- The value is constant when those of all children are. -/
  | byChildren
  deriving DecidableEq, Repr

/-- References, functions, regular expressions, side effects and statements are never
constant; names and literals always are. -/
def Form.constancy : Form → Constancy
  | constant _ | propertyName _ => .always
  | regularExpression .. | lookup .. | function .. | parameter .. => .never
  | binary op => if op.isAssignmentOperator then .never else .byChildren
  | unary op _ =>
    if op = .punctuator .increment ∨ op = .punctuator .decrement ∨ op = .word .deleteWord
    then .never else .byChildren
  | form => if form.isStatement then .never else .byChildren

namespace Tree

/-- Whether the value of a node is constant, judged down to a depth. -/
def isConstantFrom (tree : Tree) : Nat → NodeId → Bool
  | 0, _ => false
  | depth + 1, id =>
    match tree.get? (some id) with
    | none => false
    | some node =>
      match node.form.constancy with
      | .always => true
      | .never => false
      | .byChildren => node.children.all (tree.isConstantFrom depth)

/-- Whether the value of a node is constant. No branch has more nodes than the tree. -/
def isConstant (tree : Tree) (handle : Handle) : Bool :=
  match handle with
  | none => false
  | some id => tree.isConstantFrom tree.size id

end Tree

end ScriptSyntax
