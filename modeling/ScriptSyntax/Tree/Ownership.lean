import ScriptSyntax.Tree.Basic

/-! Moving children between parents. A node is in one slot at most, so a child that is
put somewhere first leaves where it was. -/
namespace ScriptSyntax.Tree

/-- Forget the parent of a child, if it is this one. -/
def release (tree : Tree) (parent : NodeId) (child : Handle) : Tree :=
  tree.modify child fun node => if node.parent = some parent then node.withParent none else node

/-- Reset the span of a node that is a list. -/
def refreshIfList (tree : Tree) (parent : NodeId) (node : Node) : Tree :=
  if node.isList then tree.recomputeListSpan (some parent) else tree

/-- Empty a slot and forget the parent of the child that was in it. -/
def unlink (tree : Tree) (parent : NodeId) (position : Nat) (child : Handle) : Tree :=
  (tree.modify (some parent) (·.clearSlot position)).release parent child

/-- Take a child out of the first slot of `parent` that holds it; without such a slot
nothing changes. -/
def removeChild (tree : Tree) (parent : NodeId) (child : Handle) : Tree :=
  match tree.get? (some parent) with
  | none => tree
  | some node =>
    match node.slotOf? child with
    | none => tree
    | some position => (tree.unlink parent position child).refreshIfList parent node

/-- Take a child out of the slot it is in, if it is in one. -/
def detach (tree : Tree) (child : Handle) : Tree :=
  match tree.parentOf child with
  | none => tree
  | some previous => tree.removeChild previous child

/-- Make `parent` the parent of a child, which leaves the slot it was in. -/
def adopt (tree : Tree) (parent : NodeId) (child : Handle) : Tree :=
  (tree.detach child).modify child (·.withParent (some parent))

/-- Replace a child by another node, or by none. The new node leaves wherever it was.
Refused when `old` is not a child of `parent`, or when `new` is `parent` or above it. -/
def replaceChild (tree : Tree) (parent old new : Handle) : Option Tree := do
  let parent ← parent
  let node ← tree.get? (some parent)
  let _ ← node.slotOf? old
  if old = new then return tree
  if new.isNone then return tree.removeChild parent old
  guard (!tree.encloses new parent)
  let adopted := tree.adopt parent new
  let position ← (← adopted.get? (some parent)).slotOf? old
  let installed := adopted.modify (some parent) (·.setSlot position new)
  return ((installed.release parent old).refreshIfList parent node).widenAncestors new

end ScriptSyntax.Tree
