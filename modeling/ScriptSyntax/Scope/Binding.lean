import ScriptSyntax.Scope.Table
import ScriptSyntax.Tree.Walk

/-! Which scope a node belongs to, and binding references to the fields they mean. -/
namespace ScriptSyntax

namespace Tree

/-- Attach a scope to a node that can open one. -/
def setScope (tree : Tree) (handle : Handle) (scope : ScopeId) : Option Tree := do
  let form ← (← tree.form? handle).withScope? scope
  return tree.modify handle (·.withForm form)

/-- The scopes attached above a node, innermost first. -/
def scopesAround (tree : Tree) (handle : Handle) : List ScopeId :=
  (tree.ancestors handle).filterMap fun id => (tree.form? (some id)).bind Form.scope?

/-- The innermost scope attached above a node. -/
def lexicalScope? (tree : Tree) (handle : Handle) : Option ScopeId :=
  (tree.scopesAround handle).head?

/-- The scope that holds the variables declared at a node: the innermost above it that
can, or the global one. -/
def variableScope (tree : Tree) (handle : Handle) (scopes : ScopeTable) : ScopeId :=
  ((tree.scopesAround handle).find? fun id =>
    (scopes.scope? id).any fun scope => scope.kind.holdsVariables).getD ScopeTable.globalScope

/-- The name a lookup refers to. -/
def lookupName? (tree : Tree) (handle : Handle) : Option String :=
  match tree.form? handle with
  | some (.lookup name _) => some name
  | _ => none

/-- The field a lookup is bound to. -/
def lookupField? (tree : Tree) (handle : Handle) : Option FieldId :=
  match tree.form? handle with
  | some (.lookup _ field) => field
  | _ => none

/-- Whether a lookup is written to, judged by its parent: the left side of an
assignment, the operand of an increment or decrement, the variable of a for-in loop. -/
def isAssignmentTarget (tree : Tree) (handle : Handle) : Bool :=
  (tree.lookupName? handle).isSome &&
  match tree.get? (tree.parentOf handle) with
  | none => false
  | some parent =>
    match parent.form with
    | .binary op => op.isAssignmentOperator && parent.slot 0 == handle
    | .unary op _ => op == .punctuator .increment || op == .punctuator .decrement
    | .forIn => parent.slot 0 == handle
    | _ => false

/-- A tree and the scopes its references are bound in. -/
structure Bound where
  tree : Tree
  scopes : ScopeTable
  field : FieldId

/-- Bind a lookup to the field its name refers to where it stands. A name that is
declared nowhere becomes an undeclared global. -/
def bindLookup (tree : Tree) (handle : Handle) (scopes : ScopeTable) : Option Bound := do
  let name ← tree.lookupName? handle
  let start := (tree.lexicalScope? handle).getD ScopeTable.globalScope
  let (scopes, field) := match scopes.resolve start name with
    | some field => (scopes, field)
    | none => scopes.declare ScopeTable.globalScope name .undeclared none
  return {
    tree := tree.modify handle (·.withForm (.lookup name (some field)))
    scopes := scopes.addReference field
    field }

end Tree

/-- What binding a whole tree remembers: the scopes, and how many lookups are bound. -/
structure BindingState where
  scopes : ScopeTable
  count : Nat := 0

/-- A visitor that binds every lookup it meets. -/
def lookupBinder : Editor BindingState where
  enter id editing :=
    match editing.tree.bindLookup (some id) editing.state.scopes with
    | none => (true, editing)
    | some bound =>
      (true, {
        tree := bound.tree
        state := { scopes := bound.scopes, count := editing.state.count + 1 } })

/-- Bind every lookup below a node. Binding changes no slots, so the steps of a plain
walk are enough. -/
def Tree.bindLookups (tree : Tree) (root : Handle) (scopes : ScopeTable) :
    Option (Editing BindingState) :=
  tree.edit root lookupBinder { scopes } tree.walkSteps

end ScriptSyntax
