import ScriptSyntax.Number.Binary64
import ScriptSyntax.Token.Span

/-! Nodes of a syntax tree. A node has a form, which says what it is, and numbered slots
for its children in source order. Children and parents are named by handles. -/
namespace ScriptSyntax

/-- The place of a node in its tree. -/
abbrev NodeId := Nat

/-- The place of a scope in a scope table. -/
abbrev ScopeId := Nat

/-- The place of a field in a scope table. -/
abbrev FieldId := Nat

/-- The name of a node, or of none. A handle may name a node that does not exist. -/
abbrev Handle := Option NodeId

/-- The value of a literal. -/
inductive Constant where
  | number (value : Binary64)
  | string (value : String)
  | boolean (value : Bool)
  | null
  deriving DecidableEq, Repr

/-- What a list holds. A list put into one of its own family gives up its elements to
it; lists of different families nest. -/
inductive ListFamily where
  | expressions | properties | parameters | declarations | statements | cases
  deriving DecidableEq, Repr

namespace ListFamily

def all : List ListFamily :=
  [expressions, properties, parameters, declarations, statements, cases]

def name : ListFamily → String
  | expressions => "Expressions"
  | properties => "Properties"
  | parameters => "Parameters"
  | declarations => "Declarations"
  | statements => "Statements"
  | cases => "Cases"

def ofName? (text : String) : Option ListFamily := all.find? fun family => family.name == text

end ListFamily

/-- A handle as shown to people. -/
def handleText : Handle → String
  | none => "#none"
  | some id => s!"#{id}"

/-- What a node is, its children left out. -/
inductive Form where
  | constant (value : Constant)
  | regularExpression (pattern flags : String)
  /-- A variable reference, and the field it is bound to. -/
  | lookup (name : String) (field : Option FieldId)
  | binary (op : TokenKind)
  | unary (op : TokenKind) (afterOperand : Bool)
  | conditional
  /-- Expressions with commas between them; its child is their list. -/
  | comma
  | arrayLiteral
  | objectLiteral
  /-- A name and a value inside an object literal. -/
  | property
  | propertyName (name : String)
  | function (name : Option String) (scope : Option ScopeId)
  | parameter (name : String) (field : Option FieldId)
  | expressionStatement
  | varStatement
  | declaration (name : String) (field : Option FieldId)
  | block (scope : Option ScopeId)
  | forLoop
  | forIn
  | whileLoop
  | doWhile
  | switchStatement
  /-- A case; without a value it is the default. -/
  | switchCase
  | program (scope : Option ScopeId)
  | list (family : ListFamily)
  deriving DecidableEq, Repr

namespace Form

def name : Form → String
  | constant _ => "Constant"
  | regularExpression .. => "RegExpLiteral"
  | lookup .. => "Lookup"
  | binary _ => "BinaryOperator"
  | unary .. => "UnaryOperator"
  | conditional => "Conditional"
  | comma => "Comma"
  | arrayLiteral => "ArrayLiteral"
  | objectLiteral => "ObjectLiteral"
  | property => "ObjectLiteralProperty"
  | propertyName _ => "ObjectLiteralField"
  | function .. => "Function"
  | parameter .. => "Parameter"
  | expressionStatement => "ExpressionStatement"
  | varStatement => "Var"
  | declaration .. => "VariableDeclaration"
  | block _ => "Block"
  | forLoop => "For"
  | forIn => "ForIn"
  | whileLoop => "While"
  | doWhile => "DoWhile"
  | switchStatement => "Switch"
  | switchCase => "SwitchCase"
  | program _ => "Program"
  | list _ => "List"

def isStatement : Form → Bool
  | expressionStatement | varStatement | declaration .. | block _ | forLoop | forIn
  | whileLoop | doWhile | switchStatement | switchCase | program _ => true
  | _ => false

/-- The scope attached to a form that opens one. -/
def scope? : Form → Option ScopeId
  | function _ scope | block scope | program scope => scope
  | _ => none

/-- The form with a scope attached, if it can have one. -/
def withScope? (form : Form) (scope : ScopeId) : Option Form :=
  match form with
  | function name _ => some (function name (some scope))
  | block _ => some (block (some scope))
  | program _ => some (program (some scope))
  | _ => none

def family? : Form → Option ListFamily
  | list family => some family
  | _ => none

def isList (form : Form) : Bool := form.family?.isSome

/-- The names of the slots of a form that is no list. -/
def slotNames : Form → List String
  | binary _ => ["left", "right"]
  | unary .. => ["operand"]
  | conditional => ["condition", "when_true", "when_false"]
  | comma => ["expressions"]
  | arrayLiteral => ["elements"]
  | objectLiteral => ["properties"]
  | property => ["name", "value"]
  | function .. => ["parameters", "body"]
  | expressionStatement => ["expression"]
  | varStatement => ["declarations"]
  | declaration .. => ["initializer"]
  | block _ => ["statements"]
  | forLoop => ["initializer", "condition", "increment", "body"]
  | forIn => ["variable", "collection", "body"]
  | whileLoop => ["condition", "body"]
  | doWhile => ["body", "condition"]
  | switchStatement => ["expression", "cases"]
  | switchCase => ["case_value", "statements"]
  | program _ => ["statements"]
  | _ => []

/-- A form can have these slots: a list any, another form one for each name. -/
def Admits (form : Form) (slots : List Handle) : Prop :=
  form.family? = none → slots.length = form.slotNames.length

instance (form : Form) (slots : List Handle) : Decidable (form.Admits slots) :=
  inferInstanceAs (Decidable (_ → _))

/-- The slots of one form can be those of another. -/
def Like (form old : Form) : Prop :=
  form.family? = old.family? ∧ form.slotNames = old.slotNames

instance (form old : Form) : Decidable (form.Like old) := inferInstanceAs (Decidable (_ ∧ _))

theorem admits_of_isList {form : Form} (isList : form.isList) (slots : List Handle) :
    form.Admits slots := by
  intro fixed
  rw [Form.isList, fixed] at isList
  cases isList

theorem Like.trans {form middle old : Form} (first : form.Like middle)
    (second : middle.Like old) : form.Like old :=
  ⟨first.1.trans second.1, first.2.trans second.2⟩

theorem Like.admits {form old : Form} {slots : List Handle} (alike : form.Like old)
    (admits : old.Admits slots) : form.Admits slots :=
  fun fixed => (admits (alike.1.symm.trans fixed)).trans (congrArg List.length alike.2.symm)

end Form

/-- A node has slots that its form can have, whatever is done to it. -/
structure Node where
  form : Form
  /-- The children in source order. A list has a slot for each element; other forms
  have slots of fixed meaning, some of which may be empty. -/
  slots : List Handle
  span : Span
  /-- The node that has this one in a slot. -/
  parent : Handle := none
  admits : form.Admits slots
  deriving DecidableEq, Repr

namespace Node

/-- A list without elements. -/
def emptyList (family : ListFamily) (span : Span) : Node where
  form := .list family
  slots := []
  span
  admits := nofun

def isList (node : Node) : Bool := node.form.isList

/-- The child in a slot; nothing in an empty slot or past the last. -/
def slot (node : Node) (position : Nat) : Handle := node.slots[position]?.join

/-- The first slot that holds a child. -/
def slotOf? (node : Node) (child : Handle) : Option Nat :=
  if child.isNone then none else node.slots.idxOf? child

/-- The children that are there, in source order. -/
def children (node : Node) : List NodeId := node.slots.filterMap id

def withSpan (node : Node) (span : Span) : Node := { node with span }

def withParent (node : Node) (parent : Handle) : Node := { node with parent }

/-- The node with other slots. One whose form cannot have these keeps its own. -/
def withSlots (node : Node) (slots : List Handle) : Node :=
  if admits : node.form.Admits slots then { node with slots, admits } else node

/-- The node with another form. One whose slots would not be those of the form keeps its own. -/
def withForm (node : Node) (form : Form) : Node :=
  if alike : form.Like node.form then { node with form, admits := alike.admits node.admits }
  else node

section Fields

variable {node : Node} {form : Form} {slots : List Handle}

theorem withSlots_slots (admits : node.form.Admits slots) :
    (node.withSlots slots).slots = slots := by
  rw [withSlots, dif_pos admits]

@[simp] theorem withSlots_form (node : Node) (slots : List Handle) :
    (node.withSlots slots).form = node.form := by
  unfold withSlots
  split <;> rfl

@[simp] theorem withSlots_span (node : Node) (slots : List Handle) :
    (node.withSlots slots).span = node.span := by
  unfold withSlots
  split <;> rfl

@[simp] theorem withSlots_parent (node : Node) (slots : List Handle) :
    (node.withSlots slots).parent = node.parent := by
  unfold withSlots
  split <;> rfl

theorem withForm_eq (alike : form.Like node.form) :
    node.withForm form = { node with form, admits := alike.admits node.admits } :=
  dif_pos alike

theorem withForm_form (alike : form.Like node.form) : (node.withForm form).form = form := by
  rw [withForm_eq alike]

@[simp] theorem withForm_family? (node : Node) (form : Form) :
    (node.withForm form).form.family? = node.form.family? := by
  unfold withForm
  split
  · next alike => exact alike.1
  · rfl

@[simp] theorem withForm_slots (node : Node) (form : Form) :
    (node.withForm form).slots = node.slots := by
  unfold withForm
  split <;> rfl

@[simp] theorem withForm_span (node : Node) (form : Form) :
    (node.withForm form).span = node.span := by
  unfold withForm
  split <;> rfl

@[simp] theorem withForm_parent (node : Node) (form : Form) :
    (node.withForm form).parent = node.parent := by
  unfold withForm
  split <;> rfl

end Fields

/-- Put a child into a slot. -/
def setSlot (node : Node) (position : Nat) (child : Handle) : Node :=
  node.withSlots (node.slots.set position child)

/-- Empty a slot. A list closes the gap. -/
def clearSlot (node : Node) (position : Nat) : Node :=
  if node.isList then node.withSlots (node.slots.eraseIdx position)
  else node.setSlot position none

/-- Put a child between two slots. -/
def insertSlot (node : Node) (position : Nat) (child : Handle) : Node :=
  node.withSlots (node.slots.insertIdx position child)

theorem admits_set (node : Node) (position : Nat) (child : Handle) :
    node.form.Admits (node.slots.set position child) :=
  fun fixed => List.length_set.trans (node.admits fixed)

@[simp] theorem setSlot_slots (node : Node) (position : Nat) (child : Handle) :
    (node.setSlot position child).slots = node.slots.set position child :=
  withSlots_slots (node.admits_set position child)

end Node

end ScriptSyntax
