import ScriptSyntax.Proofs.Scope.Nearest
import ScriptSyntax.Proofs.Tree.Fitting

/-! Two ways to the scope that holds the variables of a node: up the tree, over the scopes that
are attached to the nodes above, and outwards in the table, from the innermost of these scopes.
Where scopes lie in each other as their nodes do, both come to the same scope. -/
namespace ScriptSyntax

namespace Tree

variable {tree : Tree} {id parent : NodeId} {handle : Handle} {above : List NodeId}
  {scope : ScopeId} {rest : List ScopeId}

/-- The scope attached to a node. -/
def attachedScope? (tree : Tree) (id : NodeId) : Option ScopeId :=
  (tree.form? (some id)).bind Form.scope?

theorem length_chain_le (tree : Tree) (limit : Nat) (handle : Handle) :
    (tree.chain limit handle).length ≤ limit := by
  induction limit generalizing handle with
  | zero => exact Nat.le_refl 0
  | succ limit ih =>
    cases handle with
    | none => exact Nat.zero_le _
    | some id => exact Nat.succ_le_succ (ih _)

theorem Acyclic.chain_nodup (acyclic : tree.Acyclic) (limit : Nat) (handle : Handle) :
    (tree.chain limit handle).Nodup := by
  induction limit generalizing handle with
  | zero => exact .nil
  | succ limit ih =>
    cases handle with
    | none => exact .nil
    | some id =>
      refine List.nodup_cons.mpr ⟨fun again => ?_, ih _⟩
      obtain ⟨steps, -, reach⟩ := mem_chain_iff.mp again
      exact acyclic id (above_iff.mpr ⟨steps, reach⟩)

/-- A way up that is short enough is not cut off. -/
theorem chain_eq_of_length_le {limit : Nat}
    (short : (tree.chain (limit + 1) handle).length ≤ limit) :
    tree.chain limit handle = tree.chain (limit + 1) handle := by
  induction limit generalizing handle with
  | zero =>
    cases handle with
    | none => rfl
    | some id => cases short
  | succ limit ih =>
    cases handle with
    | none => rfl
    | some id => exact congrArg (id :: ·) (ih (Nat.le_of_succ_le_succ short))

section

variable (acyclic : tree.Acyclic) (shallow : tree.Shallow)

include acyclic shallow

/-- The ancestors of a node are its parent and the ancestors of that. -/
theorem ancestors_of_parent (linked : tree.parentOf (some id) = some parent) :
    tree.ancestors (some id) = parent :: tree.ancestors (some parent) := by
  obtain ⟨limit, follows⟩ : ∃ limit, ancestorLimit = limit + 1 := ⟨9999, rfl⟩
  have few : (tree.chain (limit + 1) (tree.parentOf (some parent))).length ≤ limit := by
    refine acyclic.fewer_above linked (follows ▸ shallow id) _ (acyclic.chain_nodup ..) ?_
    intro higher member
    obtain ⟨steps, -, reach⟩ := mem_chain_iff.mp member
    exact above_iff.mpr ⟨steps, reach⟩
  rw [ancestors, ancestors, linked, follows, chain, chain_eq_of_length_le few]

theorem ancestors_of_cons (met : tree.ancestors handle = parent :: above) :
    tree.ancestors (some parent) = above := by
  cases handle with
  | none => cases met
  | some id =>
    cases linked : tree.parentOf (some id) with
    | none =>
      rw [ancestors, linked] at met
      cases met
    | some next =>
      rw [ancestors_of_parent acyclic shallow linked] at met
      obtain ⟨rfl, same⟩ := List.cons.inj met
      exact same

/-- The innermost scope around is attached to a node, around which lie the others. -/
theorem scopesAround_of_cons (around : tree.scopesAround handle = scope :: rest) :
    ∃ id, tree.attachedScope? id = some scope ∧ tree.scopesAround (some id) = rest := by
  induction met : tree.ancestors handle generalizing handle with
  | nil =>
    rw [scopesAround, met] at around
    cases around
  | cons parent above ih =>
    have further := ancestors_of_cons acyclic shallow met
    have outer : tree.scopesAround (some parent) = above.filterMap tree.attachedScope? := by
      rw [scopesAround, further]
      rfl
    change (tree.ancestors handle).filterMap tree.attachedScope? = _ at around
    rw [met, List.filterMap_cons] at around
    cases attached : tree.attachedScope? parent with
    | none =>
      rw [attached] at around
      exact ih (outer.trans around) further
    | some found =>
      rw [attached] at around
      obtain ⟨rfl, same⟩ := List.cons.inj around
      exact ⟨parent, attached, outer.trans same⟩

end

end Tree

namespace ScopeTable

/-- Scopes lie in each other as the nodes do that they are attached to: outermost is the global
one, and every other that is attached to a node lies in the innermost one that is attached above
the node, or in the global one if there is none. -/
structure Follows (table : ScopeTable) (tree : Tree) : Prop where
  global : table.frame globalScope = some (.global, none)
  inside : ∀ id, ∀ scope ∈ tree.attachedScope? id, scope ≠ globalScope →
    (table.scope? scope).map Scope.parent =
      some (some ((tree.lexicalScope? (some id)).getD globalScope))

/-- The scope holds variables. -/
def isHome (table : ScopeTable) (id : ScopeId) : Bool :=
  (table.scope? id).any fun scope => scope.kind.holdsVariables

namespace Follows

variable {table : ScopeTable} {tree : Tree} (follows : table.Follows tree)

include follows

theorem isHome_globalScope : table.isHome globalScope = true := by
  obtain ⟨record, found, same⟩ := Option.map_eq_some_iff.mp follows.global
  rw [isHome, found, Option.any_some, (Prod.mk.inj same).1]
  rfl

theorem isSome_of_attached {id : NodeId} {scope : ScopeId}
    (attached : tree.attachedScope? id = some scope) : (table.scope? scope).isSome := by
  by_cases top : scope = globalScope
  · obtain ⟨record, found, -⟩ := Option.map_eq_some_iff.mp follows.global
    rw [top, found]
    rfl
  · obtain ⟨record, found, -⟩ := Option.map_eq_some_iff.mp (follows.inside id scope attached top)
    rw [found]
    rfl

variable (acyclic : tree.Acyclic) (shallow : tree.Shallow)

include acyclic shallow

/-- Both ways pass the same scopes until they come to one that holds variables. -/
theorem find?_chainFrom {limit : Nat} {handle : Handle}
    (room : (tree.scopesAround handle).length ≤ limit) :
    ((table.chainFrom limit
        (some ((tree.lexicalScope? handle).getD globalScope))).find? table.isHome).getD globalScope =
      ((tree.scopesAround handle).find? table.isHome).getD globalScope := by
  induction around : tree.scopesAround handle generalizing handle limit with
  | nil =>
    have unscoped : tree.lexicalScope? handle = none := by rw [Tree.lexicalScope?, around]; rfl
    rw [unscoped, Option.getD_none]
    cases limit with
    | zero => rfl
    | succ limit => rw [chainFrom, List.find?_cons_of_pos follows.isHome_globalScope]; rfl
  | cons scope rest ih =>
    have innermost : tree.lexicalScope? handle = some scope := by
      rw [Tree.lexicalScope?, around]
      rfl
    obtain ⟨id, attached, further⟩ := Tree.scopesAround_of_cons acyclic shallow around
    rw [around] at room
    obtain ⟨limit, rfl⟩ := Nat.exists_eq_succ_of_ne_zero (Nat.ne_zero_of_lt room)
    rw [innermost, Option.getD_some, chainFrom]
    by_cases home : table.isHome scope = true
    · rw [List.find?_cons_of_pos home, List.find?_cons_of_pos home]
    · have inner : scope ≠ globalScope := by
        rintro rfl
        exact home follows.isHome_globalScope
      have outwards : (table.scope? scope).bind Scope.parent =
          some ((tree.lexicalScope? (some id)).getD globalScope) := by
        obtain ⟨record, found, same⟩ :=
          Option.map_eq_some_iff.mp (follows.inside id scope attached inner)
        rw [found, Option.bind_some, same]
      rw [List.find?_cons_of_neg home, List.find?_cons_of_neg home, outwards]
      exact ih (further ▸ Nat.le_of_succ_le_succ room) further

end Follows

end ScopeTable

open ScopeTable (globalScope) in
/-- The scope that holds the variables of a node is the same whether it is looked for up the tree,
over the scopes attached there, or outwards in the table, from the innermost of these scopes (or
from the global one if there is none). The two searches have limits of their own; in a tree that
is not too deep neither of them changes the answer. -/
theorem variableScope_either_way {tree : Tree} {table : ScopeTable} (acyclic : tree.Acyclic)
    (shallow : tree.Shallow) (follows : table.Follows tree) (handle : Handle) :
    tree.variableScope handle table =
      table.variableScope ((tree.lexicalScope? handle).getD globalScope) := by
  have present : (table.scope? ((tree.lexicalScope? handle).getD globalScope)).isSome := by
    cases around : tree.scopesAround handle with
    | nil =>
      obtain ⟨record, found, -⟩ := Option.map_eq_some_iff.mp follows.global
      rw [Tree.lexicalScope?, around, List.head?_nil, Option.getD_none, found]
      rfl
    | cons scope rest =>
      obtain ⟨id, attached, -⟩ := Tree.scopesAround_of_cons acyclic shallow around
      rw [Tree.lexicalScope?, around, List.head?_cons, Option.getD_some]
      exact follows.isSome_of_attached attached
  have room : (tree.scopesAround handle).length ≤ scopeDepthLimit :=
    Nat.le_trans (List.length_filterMap_le ..) (tree.length_chain_le ..)
  obtain ⟨record, found⟩ := Option.isSome_iff_exists.mp present
  rw [ScopeTable.variableScope, ScopeTable.chain, found, Option.map_some]
  exact (follows.find?_chainFrom acyclic shallow room).symm

open ScopeTable (globalScope) in
/-- A name in a `with` statement belongs to the function around it, and the function to the global
scope, although it stands in a block. -/
theorem variableScope_either_way_of_nested_blocks :
    let tree := Operation.applyAll [.make (.lookup "a") .empty,
      .make (.expressionStatement (some 0)) .empty, .make (.block [some 1]) .empty,
      .make (.function none [] (some 3)) .empty, .make (.expressionStatement (some 5)) .empty,
      .make (.block [some 6]) .empty, .setScope (some 3) 3, .setScope (some 5) 2,
      .setScope (some 8) 1] {}
    let block := (ScopeTable.new.createScope .block globalScope (some 8)).1
    let function := (block.createScope .function 1 (some 5)).1
    let table := (function.createScope .withStatement 2 (some 3)).1
    (tree.Acyclic ∧ tree.Shallow ∧ table.Follows tree) ∧
      tree.scopesAround (some 0) = [3, 2, 1] ∧ table.variableScope 3 = 2 ∧
      tree.variableScope (some 0) table = 2 ∧
      tree.scopesAround (some 5) = [1] ∧ table.variableScope 1 = globalScope ∧
      tree.variableScope (some 5) table = globalScope := by
  intro tree block function table
  have reached : Tree.Reached (fun tree _ => tree.Shallow) tree := .applyAll .empty (by decide)
  have acyclic : tree.Acyclic := reached.acyclic fun _ _ shallow => shallow
  have shallow : tree.Shallow := reached.owned.shallow (by decide)
  have within : ∀ id < tree.size, ∀ scope ∈ tree.attachedScope? id, scope ≠ globalScope →
      (table.scope? scope).map Scope.parent =
        some (some ((tree.lexicalScope? (some id)).getD globalScope)) := by decide
  have follows : table.Follows tree := by
    refine ⟨rfl, fun id scope attached => within id ?_ scope attached⟩
    by_contra outside
    rw [Tree.attachedScope?, Tree.form?, Tree.get?_eq_none (Nat.le_of_not_lt outside)] at attached
    cases attached
  have agrees := variableScope_either_way acyclic shallow follows
  refine ⟨⟨acyclic, shallow, follows⟩, by decide, by decide, ?_, by decide, by decide, ?_⟩
  · exact (agrees (some 0)).trans (by decide)
  · exact (agrees (some 5)).trans (by decide)

end ScriptSyntax
