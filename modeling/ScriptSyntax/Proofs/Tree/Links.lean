import ScriptSyntax.Tree.Build

/-! What the small changes to a tree do to the links between its nodes: to slots, parents
and the kinds of lists. Changing spans leaves all of them alone. -/
namespace ScriptSyntax.Tree

variable {tree before middle after : Tree} {handle place : Handle} {id other : NodeId}
  {change : Node → Node}

theorem lt_size_of_get? {node : Node} (found : tree.get? (some id) = some node) :
    id < tree.size :=
  (Array.getElem?_eq_some_iff.mp found).1

theorem get?_eq_none (outside : tree.size ≤ id) : tree.get? (some id) = none :=
  Array.getElem?_eq_none outside

theorem get?_push (tree : Tree) (node : Node) (id : NodeId) :
    (tree.push node).get? (some id) =
      if id = tree.size then some node else tree.get? (some id) :=
  Array.getElem?_push

@[simp] theorem size_push (tree : Tree) (node : Node) : (tree.push node).size = tree.size + 1 :=
  Array.size_push _

@[simp] theorem size_modify (tree : Tree) (handle : Handle) (change : Node → Node) :
    (tree.modify handle change).size = tree.size := by
  cases handle with
  | none => rfl
  | some id => exact Array.size_modify

theorem get?_modify (tree : Tree) (id other : NodeId) (change : Node → Node) :
    (tree.modify (some id) change).get? (some other) =
      if other = id then (tree.get? (some other)).map change else tree.get? (some other) := by
  have changed : (tree.modify (some id) change).get? (some other) =
      if id = other then (tree.get? (some other)).map change else tree.get? (some other) :=
    Array.getElem?_modify
  rw [changed]
  by_cases same : id = other
  · rw [if_pos same, if_pos same.symm]
  · rw [if_neg same, if_neg (Ne.symm same)]

theorem get?_modify_self (tree : Tree) (id : NodeId) (change : Node → Node) :
    (tree.modify (some id) change).get? (some id) = (tree.get? (some id)).map change := by
  rw [get?_modify, if_pos rfl]

theorem get?_modify_ne (distinct : other ≠ id) :
    (tree.modify (some id) change).get? (some other) = tree.get? (some other) := by
  rw [get?_modify, if_neg distinct]

/-- What a change keeps of every node it keeps of the tree. -/
theorem map_get?_modify {View : Type} {view : Node → View}
    (keeps : ∀ node, view (change node) = view node) :
    ((tree.modify handle change).get? place).map view = (tree.get? place).map view := by
  cases place with
  | none => rfl
  | some other =>
    cases handle with
    | none => rfl
    | some id =>
      rw [get?_modify]
      split
      · rw [Option.map_map]
        exact congrArg (Option.map · _) (funext keeps)
      · rfl

theorem slots_modify (keeps : ∀ node, (change node).slots = node.slots) :
    (tree.modify handle change).slots place = tree.slots place := by
  rw [slots, slots, map_get?_modify keeps]

theorem span?_modify (keeps : ∀ node, (change node).span = node.span) :
    (tree.modify handle change).span? place = tree.span? place := by
  rw [span?, span?, map_get?_modify keeps]

/-- The same of what a node may or may not have. -/
theorem bind_get?_modify {View : Type} {view : Node → Option View}
    (keeps : ∀ node, view (change node) = view node) :
    ((tree.modify handle change).get? place).bind view = (tree.get? place).bind view := by
  have same : ((tree.modify handle change).get? place).map view = (tree.get? place).map view :=
    map_get?_modify keeps
  simpa only [Option.bind_map, Function.id_comp] using congrArg (Option.bind · id) same

theorem parentOf_modify (keeps : ∀ node, (change node).parent = node.parent) :
    (tree.modify handle change).parentOf place = tree.parentOf place :=
  bind_get?_modify keeps

theorem family?_modify (keeps : ∀ node, (change node).form.family? = node.form.family?) :
    (tree.modify handle change).family? place = tree.family? place :=
  bind_get?_modify keeps

/-- Only spans have changed. -/
structure Respanned (before after : Tree) : Prop where
  size : after.size = before.size
  slots : ∀ handle, after.slots handle = before.slots handle
  parentOf : ∀ handle, after.parentOf handle = before.parentOf handle
  family? : ∀ handle, after.family? handle = before.family? handle

namespace Respanned

theorem refl (tree : Tree) : Respanned tree tree := ⟨rfl, fun _ => rfl, fun _ => rfl, fun _ => rfl⟩

theorem trans (first : Respanned before middle) (second : Respanned middle after) :
    Respanned before after where
  size := second.size.trans first.size
  slots handle := (second.slots handle).trans (first.slots handle)
  parentOf handle := (second.parentOf handle).trans (first.parentOf handle)
  family? handle := (second.family? handle).trans (first.family? handle)

theorem symm (respanned : Respanned before after) : Respanned after before where
  size := respanned.size.symm
  slots handle := (respanned.slots handle).symm
  parentOf handle := (respanned.parentOf handle).symm
  family? handle := (respanned.family? handle).symm

theorem setSpan (tree : Tree) (handle : Handle) (span : Span) :
    Respanned tree (tree.setSpan handle span) := by
  unfold Tree.setSpan
  refine ⟨size_modify .., fun place => ?_, fun place => ?_, fun place => ?_⟩
  · exact slots_modify fun _ => rfl
  · exact parentOf_modify fun _ => rfl
  · exact family?_modify fun _ => rfl

theorem bubbleSpan (tree : Tree) (limit : Nat) (child : Handle) :
    Respanned tree (tree.bubbleSpan limit child) := by
  induction limit generalizing tree child with
  | zero => exact refl tree
  | succ limit ih =>
    unfold Tree.bubbleSpan
    dsimp only
    split
    · split
      · exact refl tree
      · exact (setSpan ..).trans (ih ..)
    · exact refl tree

theorem widenAncestors (tree : Tree) (handle : Handle) :
    Respanned tree (tree.widenAncestors handle) := bubbleSpan ..

theorem widenOver (tree : Tree) (handle other : Handle) :
    Respanned tree (tree.widenOver handle other) := by
  unfold Tree.widenOver
  split
  · exact setSpan ..
  · exact refl tree

theorem recomputeListSpan (tree : Tree) (list : Handle) :
    Respanned tree (tree.recomputeListSpan list) := by
  unfold Tree.recomputeListSpan
  split
  · exact setSpan ..
  · exact refl tree

/-- How a list is brought up to date when it gets an element, as its first one or not. -/
theorem fitList (tree : Tree) (list element : Handle) (first : Bool) :
    Respanned tree
      (if first then tree.recomputeListSpan list else tree.widenOver list element) := by
  split
  · exact recomputeListSpan ..
  · exact widenOver ..

theorem refreshIfList (tree : Tree) (parent : NodeId) (node : Node) :
    Respanned tree (tree.refreshIfList parent node) := by
  unfold Tree.refreshIfList
  split
  · exact recomputeListSpan ..
  · exact refl tree

end Respanned

end ScriptSyntax.Tree
