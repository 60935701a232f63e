import ScriptSyntax.Proofs.Scope.Reordering
import ScriptSyntax.Proofs.Tree.Steady

/-! Binding all lookups below a node. The pass meets each of them once, so it does what binding
them one after another does, in the order of the walk; and what this is does not depend on the
order. -/
namespace ScriptSyntax

open Event

section Pass

variable {tree : Tree} {table : ScopeTable} {lookups nodes : List NodeId} {created : List String}
  {after : Editing BindingState} {root id : NodeId} {name : String}

namespace Bindings

variable (bindings : Bindings tree table lookups created after)

include bindings

/-- A lookup is bound to what its name means in the end. -/
theorem lookupField? (member : id ∈ lookups) (named : tree.lookupName? (some id) = some name) :
    after.tree.lookupField? (some id) = tree.meaning? after.state.scopes id := by
  rw [Tree.lookupName?_eq] at named
  obtain ⟨form, stands, called⟩ := Option.bind_eq_some_iff.mp named
  obtain ⟨node, found, rfl⟩ := Option.map_eq_some_iff.mp stands
  cases shape : node.form with
  | lookup other field =>
    unfold Tree.lookupField? Tree.form?
    rw [bindings.get?, if_pos member, found, Option.map_some, Option.map_some,
      Node.form_withField, shape]
    rfl
  | _ => simp [shape, Form.lookupName?] at called

variable (grounded : table.Grounded)

include grounded

end Bindings

end Pass

end ScriptSyntax
