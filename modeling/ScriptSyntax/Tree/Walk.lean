import ScriptSyntax.Tree.Basic

/-! Walking a tree: a visitor meets a node before its children and again after them.
The second meeting takes place even when the first one asks to skip the children. -/
namespace ScriptSyntax

/-- A visitor that only looks; `σ` is what it remembers. -/
structure Visitor (σ : Type) where
  /-- Meet a node; the answer tells whether its children are visited. -/
  enter : Tree → NodeId → σ → Bool × σ := fun _ _ state => (true, state)
  leave : Tree → NodeId → σ → σ := fun _ _ state => state

/-- A tree and what an editor of it remembers. -/
structure Editing (σ : Type) where
  tree : Tree
  state : σ

/-- A visitor that may change the tree as it goes. -/
structure Editor (σ : Type) where
  enter : NodeId → Editing σ → Bool × Editing σ := fun _ editing => (true, editing)
  leave : NodeId → Editing σ → Editing σ := fun _ editing => editing

namespace Tree

variable {σ : Type}

/-- Walk the part of a tree below a node, down to a depth. -/
def walkFrom (tree : Tree) (visitor : Visitor σ) : Nat → NodeId → σ → σ
  | 0, _, state => state
  | depth + 1, id, state =>
    match tree.get? (some id) with
    | none => state
    | some node =>
      let (descends, state) := visitor.enter tree id state
      let state :=
        if descends then
          node.children.foldl (fun state child => tree.walkFrom visitor depth child state) state
        else state
      visitor.leave tree id state

/-- Walk the part of a tree below a node. No branch has more nodes than the tree. -/
def walk (tree : Tree) (root : Handle) (visitor : Visitor σ) (state : σ) : σ :=
  match root with
  | none => state
  | some id => tree.walkFrom visitor tree.size id state

/-- Whether the walk over a node's slots goes on with the next slot. It stays where it
is when a list has lost the child that was just visited, so that the one that moved up
is not missed. -/
def advances (tree : Tree) (id : NodeId) (position count : Nat) (child : Handle) : Bool :=
  tree.slot (some id) position == child || count ≤ (tree.slots (some id)).length

mutual

/-- Walk the part of a tree below a node, letting the visitor change the tree. Slots
are read one at a time, so that changes made on the way are seen. There is no result
when `steps` are not enough. -/
def editFrom (visitor : Editor σ) :
    Nat → NodeId → Editing σ → Option (Editing σ)
  | 0, _, _ => none
  | steps + 1, id, editing =>
    if (editing.tree.get? (some id)).isNone then some editing
    else
      let (descends, entered) := visitor.enter id editing
      let below := if descends then editSlots visitor steps id 0 entered else some entered
      below.map (visitor.leave id)

/-- Walk the children in the slots from `position` on. -/
def editSlots (visitor : Editor σ) :
    Nat → NodeId → Nat → Editing σ → Option (Editing σ)
  | 0, _, _, _ => none
  | steps + 1, id, position, editing =>
    let count := (editing.tree.slots (some id)).length
    if count ≤ position then some editing
    else
      let child := editing.tree.slot (some id) position
      let walked := match child with
        | none => some editing
        | some child => editFrom visitor steps child editing
      walked.bind fun editing =>
        let next :=
          if editing.tree.advances id position count child then position + 1 else position
        editSlots visitor steps id next editing

end

/-- Walk below a node, letting the visitor change the tree. -/
def edit (tree : Tree) (root : Handle) (visitor : Editor σ) (state : σ) (steps : Nat) :
    Option (Editing σ) :=
  match root with
  | none => some { tree, state }
  | some id => editFrom visitor steps id { tree, state }

/-- Enough steps to walk a tree whose slots do not change: two for each node and one
for each slot. -/
def walkSteps (tree : Tree) : Nat :=
  tree.nodes.foldl (fun sum node => sum + node.slots.length + 2) 1

end Tree

end ScriptSyntax
