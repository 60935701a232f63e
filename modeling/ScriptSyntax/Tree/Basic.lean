import ScriptSyntax.Tree.Node

/-! A syntax tree is a store of nodes named by their place in it. Nodes are only ever
added; a part of the tree that is cut off stays in the store. -/
namespace ScriptSyntax

/-- The most parent links that are followed from a node, in case the links go round in
a circle. -/
def ancestorLimit : Nat := 10000

structure Tree where
  nodes : Array Node := #[]
  deriving DecidableEq, Repr, Inhabited

namespace Tree

def size (tree : Tree) : Nat := tree.nodes.size

def get? (tree : Tree) (handle : Handle) : Option Node := handle.bind (tree.nodes[·]?)

/-- Add a node and nothing else: its children are not told of their parent. -/
def push (tree : Tree) (node : Node) : Tree := { nodes := tree.nodes.push node }

/-- Change one node, if there is such a node. -/
def modify (tree : Tree) (handle : Handle) (change : Node → Node) : Tree :=
  match handle with
  | none => tree
  | some id => { nodes := tree.nodes.modify id change }

def form? (tree : Tree) (handle : Handle) : Option Form := (tree.get? handle).map Node.form

def span? (tree : Tree) (handle : Handle) : Option Span := (tree.get? handle).map Node.span

def parentOf (tree : Tree) (handle : Handle) : Handle := (tree.get? handle).bind Node.parent

def slots (tree : Tree) (handle : Handle) : List Handle :=
  ((tree.get? handle).map Node.slots).getD []

def slot (tree : Tree) (handle : Handle) (position : Nat) : Handle :=
  (tree.get? handle).bind (·.slot position)

/-- The children that are there, in source order. -/
def children (tree : Tree) (handle : Handle) : List NodeId :=
  ((tree.get? handle).map Node.children).getD []

/-- A handle, its parent, the parent of that, and so on, at most `limit` of them. -/
def chain (tree : Tree) : Nat → Handle → List NodeId
  | 0, _ => []
  | _ + 1, none => []
  | limit + 1, some id => id :: tree.chain limit (tree.parentOf (some id))

/-- The nodes above a node, nearest first. -/
def ancestors (tree : Tree) (handle : Handle) : List NodeId :=
  tree.chain ancestorLimit (tree.parentOf handle)

/-- The node is `inner` or one of the nodes above it. -/
def encloses (tree : Tree) (outer : Handle) (inner : NodeId) : Bool :=
  outer == some inner || (tree.ancestors (some inner)).any (outer == some ·)

def setSpan (tree : Tree) (handle : Handle) (span : Span) : Tree :=
  tree.modify handle (·.withSpan span)

/-- Widen the spans above a node until one covers what is below it. -/
def bubbleSpan (tree : Tree) : Nat → Handle → Tree
  | 0, _ => tree
  | limit + 1, child =>
    let parent := tree.parentOf child
    match tree.span? child, tree.span? parent with
    | some inner, some outer =>
      if inner.isPlaceholder ∨ outer.Covers inner then tree
      else (tree.setSpan parent (outer.union inner)).bubbleSpan limit parent
    | _, _ => tree

/-- Widen the spans above a node. -/
def widenAncestors (tree : Tree) (handle : Handle) : Tree := tree.bubbleSpan ancestorLimit handle

/-- Widen a node's own span over another's. -/
def widenOver (tree : Tree) (handle other : Handle) : Tree :=
  match tree.span? handle, tree.span? other with
  | some own, some theirs => tree.setSpan handle (own.union theirs)
  | _, _ => tree

/-- The span of a list over its elements: their union, or no width when none has a
span. -/
def listHull (tree : Tree) (current : Span) (elements : List Handle) : Span :=
  (Span.hull? current.kind (elements.filterMap tree.span?)).getD current.atStart

/-- Reset the span of a list to that of its elements. -/
def recomputeListSpan (tree : Tree) (list : Handle) : Tree :=
  match tree.get? list with
  | some node => tree.setSpan list (tree.listHull node.span node.slots)
  | none => tree

end Tree

end ScriptSyntax
