import ScriptSyntax.Tree.Ownership

/-! Lists of nodes. A list is a node itself: the parent of its elements, and as wide as
they are. -/
namespace ScriptSyntax.Tree

def family? (tree : Tree) (list : Handle) : Option ListFamily :=
  (tree.get? list).bind (·.form.family?)

/-- The elements of a list; none of what is no list. -/
def elements (tree : Tree) (list : Handle) : List Handle :=
  if (tree.family? list).isSome then tree.slots list else []

def element (tree : Tree) (list : Handle) (position : Nat) : Handle :=
  (tree.elements list)[position]?.join

/-- Take the element at a position out of a list. -/
def removeAt (tree : Tree) (list : Handle) (position : Nat) : Tree × Handle :=
  match list, (tree.elements list)[position]? with
  | some id, some removed =>
    ((tree.unlink id position removed).recomputeListSpan list, removed)
  | _, _ => (tree, none)

/-- Put one node into a list. A node that stands in the list already moves, and the
position counts before it has left. -/
def insertElement (tree : Tree) (list : NodeId) (position : Nat) (node : Handle) :
    Option Tree := do
  guard (!tree.encloses node list)
  let position :=
    if tree.parentOf node = some list then
      match (tree.elements (some list)).idxOf? node with
      | some current => if current < position then position - 1 else position
      | none => position
    else position
  let adopted := tree.adopt list node
  guard (adopted.family? (some list)).isSome
  let others := adopted.elements (some list)
  let inserted := adopted.modify (some list) (·.insertSlot (min position others.length) node)
  let fitted :=
    if others.isEmpty then inserted.recomputeListSpan (some list)
    else inserted.widenOver (some list) node
  return fitted.widenAncestors (some list)

/-- The position behind another, as callers give positions: in words of 64 bits, where the
first comes behind the last. -/
def positionBehind (position : Nat) : Nat := (position + 1) % UInt64.size

/-- Move the first `count` elements of a list into another: the first to `position`, each
other behind the one before. One that cannot go there is left without a parent. -/
def moveElements (tree : Tree) (behind : Nat → Nat) (list source : NodeId) :
    (count position : Nat) → Tree
  | 0, _ => tree
  | count + 1, position =>
    let (rest, moved) := tree.removeAt (some source) 0
    match rest.insertElement list position moved with
    | some inserted => inserted.moveElements behind list source count (behind position)
    | none => rest.moveElements behind list source count position

/-- Insert a node into a list before `position`, or at its end if it is shorter. A list
of the same family gives up its elements instead; `behind` says where they go on. Refused
for what is no list, for no node, and for a node that encloses the list. -/
def insertBy (tree : Tree) (behind : Nat → Nat) (list : Handle) (position : Nat)
    (node : Handle) : Option Tree := do
  let family ← tree.family? list
  let list ← list
  let source ← node
  guard (!tree.encloses node list)
  if tree.family? node = some family then
    return tree.moveElements behind list source (tree.elements node).length position
  else tree.insertElement list position node

/-- Insert a node into a list before a position that a caller gives. -/
def insert (tree : Tree) (list : Handle) (position : Nat) (node : Handle) : Option Tree :=
  tree.insertBy positionBehind list position node

/-- Insert a node at the end of a list. No list is as long as there are words, so behind its
end the positions go on. -/
def append (tree : Tree) (list node : Handle) : Option Tree :=
  tree.insertBy (· + 1) list (tree.elements list).length node

/-- Replace the element at a position, or take it out when there is nothing to put in
its place. -/
def setElement (tree : Tree) (list : Handle) (position : Nat) (node : Handle) : Option Tree := do
  let old ← tree.element list position
  if node.isNone then return (tree.removeAt list position).1
  tree.replaceChild list (some old) node

/-- Put a node into a slot of another, or empty the slot. Slots of a list are its
elements. Refused past the last slot, and for a node that encloses the other. -/
def setChild (tree : Tree) (parent : Handle) (position : Nat) (new : Handle) : Option Tree := do
  let node ← tree.get? parent
  if node.isList then tree.setElement parent position new
  else
    guard (position < node.slots.length)
    if (node.slot position).isSome then tree.replaceChild parent (node.slot position) new
    else if new.isNone then return tree
    else
      let parent ← parent
      guard (!tree.encloses new parent)
      let adopted := tree.adopt parent new
      return (adopted.modify (some parent) (·.setSlot position new)).widenAncestors new

end ScriptSyntax.Tree
