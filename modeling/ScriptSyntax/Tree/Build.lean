import ScriptSyntax.Tree.List

/-! Building trees. A constructor is given the span of the node's own leading tokens; it
becomes the parent of its children and widens the span over them. -/
namespace ScriptSyntax.Tree

/-- A tree and the node that was made in it. -/
structure Built where
  tree : Tree
  id : NodeId
  deriving DecidableEq, Repr

/-- Adopt the child in one slot of a new node and widen the node over it. -/
def attachSlot (tree : Tree) (id : NodeId) (position : Nat) : Tree :=
  match tree.slot (some id) position with
  | none => tree
  | some child => (tree.adopt id (some child)).widenOver (some id) (some child)

/-- Make a node with these children. A child named twice ends up in the last slot that
names it. -/
def add (tree : Tree) (form : Form) (children : List Handle) (span : Span)
    (admits : form.Admits children) : Built :=
  let id := tree.size
  let pushed := tree.push { form, slots := children, span, admits }
  { tree := (List.range children.length).foldl (·.attachSlot id ·) pushed, id }

/-- Append nodes to a list in turn. What is refused is left out. -/
def appendAll (tree : Tree) (list : Handle) (nodes : List Handle) : Tree :=
  nodes.foldl (fun tree node => (tree.append list node).getD tree) tree

/-- Make a list. Lists of the same family among the elements give up theirs to it. -/
def addList (tree : Tree) (family : ListFamily) (span : Span) (elements : List Handle) :
    Built where
  tree := (tree.push (.emptyList family span)).appendAll (some tree.size) elements
  id := tree.size

/-- Make a list for a node with this span, before the node itself. -/
def addOwnedList (tree : Tree) (family : ListFamily) (owner : Span) (elements : List Handle) :
    Built :=
  tree.addList family owner.atStart elements

/-- Make a node whose children are `before`, a new list, and `after`. -/
def addWithList (tree : Tree) (form : Form) (family : ListFamily) (span : Span)
    (before elements after : List Handle)
    (admits : ∀ list, form.Admits (before ++ list :: after)) : Built :=
  let list := tree.addOwnedList family span elements
  list.tree.add form (before ++ some list.id :: after) span (admits (some list.id))

section Expressions

def addConstant (tree : Tree) (span : Span) (value : Constant) : Built :=
  tree.add (.constant value) [] span fun _ => rfl

def addRegularExpression (tree : Tree) (span : Span) (pattern flags : String) : Built :=
  tree.add (.regularExpression pattern flags) [] span fun _ => rfl

def addLookup (tree : Tree) (span : Span) (name : String) : Built :=
  tree.add (.lookup name none) [] span fun _ => rfl

/-- A binary or assignment operator. -/
def addBinary (tree : Tree) (span : Span) (op : TokenKind) (left right : Handle) : Built :=
  tree.add (.binary op) [left, right] span fun _ => rfl

def addUnary (tree : Tree) (span : Span) (op : TokenKind) (operand : Handle)
    (afterOperand : Bool) : Built :=
  tree.add (.unary op afterOperand) [operand] span fun _ => rfl

def addConditional (tree : Tree) (span : Span) (condition whenTrue whenFalse : Handle) :
    Built :=
  tree.add .conditional [condition, whenTrue, whenFalse] span fun _ => rfl

def addComma (tree : Tree) (span : Span) (expressions : List Handle) : Built :=
  tree.addWithList .comma .expressions span [] expressions [] fun _ _ => rfl

def addArrayLiteral (tree : Tree) (span : Span) (elements : List Handle) : Built :=
  tree.addWithList .arrayLiteral .expressions span [] elements [] fun _ _ => rfl

def addObjectLiteral (tree : Tree) (span : Span) (properties : List Handle) : Built :=
  tree.addWithList .objectLiteral .properties span [] properties [] fun _ _ => rfl

def addPropertyName (tree : Tree) (span : Span) (name : String) : Built :=
  tree.add (.propertyName name) [] span fun _ => rfl

def addProperty (tree : Tree) (span : Span) (name value : Handle) : Built :=
  tree.add .property [name, value] span fun _ => rfl

def addFunction (tree : Tree) (span : Span) (name : Option String) (parameters : List Handle)
    (body : Handle) : Built :=
  tree.addWithList (.function name none) .parameters span [] parameters [body] fun _ _ => rfl

def addParameter (tree : Tree) (span : Span) (name : String) : Built :=
  tree.add (.parameter name none) [] span fun _ => rfl

end Expressions

section Statements

def addExpressionStatement (tree : Tree) (span : Span) (expression : Handle) : Built :=
  tree.add .expressionStatement [expression] span fun _ => rfl

def addVar (tree : Tree) (span : Span) (declarations : List Handle) : Built :=
  tree.addWithList .varStatement .declarations span [] declarations [] fun _ _ => rfl

def addDeclaration (tree : Tree) (span : Span) (name : String) (initializer : Handle) : Built :=
  tree.add (.declaration name none) [initializer] span fun _ => rfl

def addBlock (tree : Tree) (span : Span) (statements : List Handle) : Built :=
  tree.addWithList (.block none) .statements span [] statements [] fun _ _ => rfl

def addFor (tree : Tree) (span : Span) (initializer condition increment body : Handle) : Built :=
  tree.add .forLoop [initializer, condition, increment, body] span fun _ => rfl

def addForIn (tree : Tree) (span : Span) (binding collection body : Handle) : Built :=
  tree.add .forIn [binding, collection, body] span fun _ => rfl

def addWhile (tree : Tree) (span : Span) (condition body : Handle) : Built :=
  tree.add .whileLoop [condition, body] span fun _ => rfl

def addDoWhile (tree : Tree) (span : Span) (body condition : Handle) : Built :=
  tree.add .doWhile [body, condition] span fun _ => rfl

def addSwitch (tree : Tree) (span : Span) (expression : Handle) (cases : List Handle) : Built :=
  tree.addWithList .switchStatement .cases span [expression] cases [] fun _ _ => rfl

/-- A case with its value, or the default without one. -/
def addSwitchCase (tree : Tree) (span : Span) (value : Handle) (statements : List Handle) :
    Built :=
  tree.addWithList .switchCase .statements span [value] statements [] fun _ _ => rfl

def addProgram (tree : Tree) (span : Span) (statements : List Handle) : Built :=
  tree.addWithList (.program none) .statements span [] statements [] fun _ _ => rfl

end Statements

/-- The list of expressions of a comma node. -/
def commaList? (tree : Tree) (handle : Handle) : Option Handle :=
  if tree.form? handle = some .comma then some (tree.slot handle 0) else none

/-- The comma node that `left` is, or a new one around it. -/
def commaAround (tree : Tree) (left : NodeId) (span : Span) : Built :=
  if (tree.commaList? (some left)).isSome then { tree, id := left }
  else tree.addComma (span.withKind (.punctuator .comma)) [some left]

/-- Join two expressions by a comma. A comma node on the left is extended; the elements
of one on the right are taken over and the emptied node is detached. -/
def combineWithComma (tree : Tree) (left right : Handle) : Tree × Handle :=
  match left, tree.get? left with
  | some id, some node =>
    let sequence := tree.commaAround id node.span
    let result : Handle := some sequence.id
    let addition :=
      if (sequence.tree.get? right).isNone then none
      else some ((sequence.tree.commaList? right).getD right)
    match addition, sequence.tree.commaList? result with
    | some addition, some list =>
      match sequence.tree.append list addition with
      | none => (sequence.tree, result)
      | some joined =>
        match joined.parentOf right with
        | some previous =>
          if addition ≠ right then (joined.removeChild previous right, result)
          else (joined, result)
        | none => (joined, result)
    | _, _ => (sequence.tree, result)
  | _, _ => (tree, right)

end ScriptSyntax.Tree
