import ScriptSyntax.Tree.Node

/-! Scopes within scopes, and the fields declared in them. The first scope is the global
one. -/
namespace ScriptSyntax

/-- The most scopes that are visited outwards from one. -/
def scopeDepthLimit : Nat := 10000

inductive ScopeKind where
  | global | function | block | catchClause | withStatement
  deriving DecidableEq, Repr

namespace ScopeKind

def all : List ScopeKind := [global, function, block, catchClause, withStatement]

def name : ScopeKind → String
  | global => "Global"
  | function => "Function"
  | block => "Block"
  | catchClause => "Catch"
  | withStatement => "With"

def ofName? (text : String) : Option ScopeKind := all.find? fun kind => kind.name == text

/-- Only functions and the global scope hold variables declared anywhere inside. -/
def holdsVariables : ScopeKind → Bool
  | global | function => true
  | _ => false

end ScopeKind

inductive FieldKind where
  | local | argument | global
  /-- Supplied by the host. -/
  | predefined
  /-- Referred to but never declared. -/
  | undeclared
  deriving DecidableEq, Repr

namespace FieldKind

def all : List FieldKind := [.local, .argument, .global, .predefined, .undeclared]

def name : FieldKind → String
  | .local => "Local"
  | .argument => "Argument"
  | .global => "Global"
  | .predefined => "Predefined"
  | .undeclared => "UndeclaredGlobal"

def ofName? (text : String) : Option FieldKind := all.find? fun kind => kind.name == text

end FieldKind

/-- A variable of some kind. -/
structure Field where
  name : String
  kind : FieldKind
  scope : ScopeId
  /-- The nodes that declare it, in the order of the declarations. -/
  declarations : List NodeId := []
  /-- How many lookups are bound to it. -/
  references : Nat := 0
  deriving DecidableEq, Repr

structure Scope where
  kind : ScopeKind
  parent : Option ScopeId
  /-- The node that opens the scope. -/
  node : Handle
  /-- The fields declared directly in it, by name. -/
  names : List (String × FieldId) := []
  deriving DecidableEq, Repr

structure ScopeTable where
  scopes : Array Scope
  fields : Array Field
  deriving DecidableEq, Repr

namespace ScopeTable

/-- The global scope alone. -/
def new : ScopeTable where
  scopes := #[{ kind := .global, parent := none, node := none }]
  fields := #[]

def globalScope : ScopeId := 0

def scope? (table : ScopeTable) (id : ScopeId) : Option Scope := table.scopes[id]?

def field? (table : ScopeTable) (id : FieldId) : Option Field := table.fields[id]?

/-- Open a scope inside another. -/
def createScope (table : ScopeTable) (kind : ScopeKind) (parent : ScopeId) (node : Handle) :
    ScopeTable × ScopeId :=
  ({ table with scopes := table.scopes.push { kind, parent := some parent, node } },
    table.scopes.size)

/-- The field a scope itself declares under a name. -/
def findIn (table : ScopeTable) (scope : ScopeId) (name : String) : Option FieldId :=
  (table.scope? scope).bind (·.names.lookup name)

/-- A scope and those around it, innermost first, at most `limit` of them. -/
def chainFrom (table : ScopeTable) : Nat → Option ScopeId → List ScopeId
  | 0, _ => []
  | _ + 1, none => []
  | limit + 1, some id => id :: table.chainFrom limit ((table.scope? id).bind Scope.parent)

/-- A scope and those around it, innermost first. -/
def chain (table : ScopeTable) (scope : ScopeId) : List ScopeId :=
  table.chainFrom scopeDepthLimit ((table.scope? scope).map fun _ => scope)

/-- The field a name refers to: the one declared in the nearest scope. -/
def resolve (table : ScopeTable) (scope : ScopeId) (name : String) : Option FieldId :=
  (table.chain scope).findSome? (table.findIn · name)

/-- The nearest scope that holds variables. -/
def variableScope (table : ScopeTable) (scope : ScopeId) : ScopeId :=
  ((table.chain scope).find? fun id =>
    (table.scope? id).any fun scope => scope.kind.holdsVariables).getD globalScope

def modifyField (table : ScopeTable) (id : FieldId) (change : Field → Field) : ScopeTable :=
  { table with fields := table.fields.modify id change }

/-- Note that a field is declared once more. -/
def addDeclaration (table : ScopeTable) (id : FieldId) (node : Handle) : ScopeTable :=
  table.modifyField id fun field =>
    { field with declarations := field.declarations ++ node.toList }

/-- Add a field that its scope does not have yet. -/
def addField (table : ScopeTable) (field : Field) : ScopeTable × FieldId :=
  let id := table.fields.size
  ({ fields := table.fields.push field
     scopes := table.scopes.modify field.scope fun scope =>
      { scope with names := scope.names ++ [(field.name, id)] } },
    id)

/-- Declare a name in a scope. Declaring it again there gives the same field. -/
def declare (table : ScopeTable) (scope : ScopeId) (name : String) (kind : FieldKind)
    (node : Handle) : ScopeTable × FieldId :=
  match table.findIn scope name with
  | some id => (table.addDeclaration id node, id)
  | none => table.addField { name, kind, scope, declarations := node.toList }

/-- Declare a variable: it belongs to the nearest scope that holds variables. -/
def declareVariable (table : ScopeTable) (scope : ScopeId) (name : String) (node : Handle) :
    ScopeTable × FieldId :=
  let home := table.variableScope scope
  table.declare home name (if home = globalScope then .global else .local) node

/-- Declare a global name that the host supplies. -/
def declarePredefined (table : ScopeTable) (name : String) : ScopeTable × FieldId :=
  table.declare globalScope name .predefined none

/-- Note one more lookup bound to a field. -/
def addReference (table : ScopeTable) (id : FieldId) : ScopeTable :=
  table.modifyField id fun field => { field with references := field.references + 1 }

end ScopeTable

end ScriptSyntax
