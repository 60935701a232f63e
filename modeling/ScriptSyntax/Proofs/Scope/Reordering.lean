import ScriptSyntax.Proofs.Scope.Binding
import Mathlib.Logic.Equiv.Defs

/-! The same lookups bound in another order. The names that get a field are the same, since a
name gets one if some lookup of that name meant nothing at first; only the order in which the
fields are made is another, and the numbers with it. -/
namespace ScriptSyntax

section Renumber

variable {first position id : Nat} {created others : List String} {name : String}

end Renumber

namespace ScopeTable

variable {created others : List String}

end ScopeTable

namespace Bindings

variable {before : Tree} {table : ScopeTable} {lookups others : List NodeId}
  {created created' : List String} {first second : Editing BindingState}

section Orders

variable (one : Bindings before table lookups created first)
  (two : Bindings before table others created' second) (same : lookups.Perm others)

include one two same

variable (grounded : table.Grounded)

include grounded

end Orders

end Bindings

end ScriptSyntax
