import ScriptSyntax.Proofs.Tree.Owned
import Mathlib.Data.Option.Basic
import Mathlib.Logic.Relation

/-! What the operations that move children come to: a child leaves where it was, takes its
new place, and spans are brought up to date. None of them puts slots and parents out of
step. -/
namespace ScriptSyntax.Tree

variable {tree after : Tree} {parent child list : NodeId} {handle : Handle} {position : Nat}

/-- No node has got another form: only slots, parents and spans may have changed. -/
structure KeepsForms (before after : Tree) : Prop where
  form? : ∀ handle, after.form? handle = before.form? handle

namespace KeepsForms

variable {before middle after : Tree}

theorem refl (tree : Tree) : KeepsForms tree tree := ⟨fun _ => rfl⟩

theorem trans (first : KeepsForms before middle) (second : KeepsForms middle after) :
    KeepsForms before after :=
  ⟨fun handle => (second.form? handle).trans (first.form? handle)⟩

theorem modify (tree : Tree) (handle : Handle) {change : Node → Node}
    (keeps : ∀ node, (change node).form = node.form) :
    KeepsForms tree (tree.modify handle change) :=
  ⟨fun _ => map_get?_modify keeps⟩

theorem setSpan (tree : Tree) (handle : Handle) (span : Span) :
    KeepsForms tree (tree.setSpan handle span) :=
  modify tree handle fun _ => rfl

theorem recomputeListSpan (tree : Tree) (list : Handle) :
    KeepsForms tree (tree.recomputeListSpan list) := by
  unfold Tree.recomputeListSpan
  split
  · exact setSpan ..
  · exact refl tree

theorem widenOver (tree : Tree) (handle other : Handle) :
    KeepsForms tree (tree.widenOver handle other) := by
  unfold Tree.widenOver
  split
  · exact setSpan ..
  · exact refl tree

theorem refreshIfList (tree : Tree) (parent : NodeId) (node : Node) :
    KeepsForms tree (tree.refreshIfList parent node) := by
  unfold Tree.refreshIfList
  split
  · exact recomputeListSpan ..
  · exact refl tree

theorem bubbleSpan (tree : Tree) (limit : Nat) (child : Handle) :
    KeepsForms tree (tree.bubbleSpan limit child) := by
  induction limit generalizing tree child with
  | zero => exact refl tree
  | succ limit ih =>
    unfold Tree.bubbleSpan
    dsimp only
    split
    · split
      · exact refl tree
      · exact (setSpan ..).trans (ih ..)
    · exact refl tree

theorem release (tree : Tree) (parent : NodeId) (child : Handle) :
    KeepsForms tree (tree.release parent child) :=
  modify tree child fun node => by split <;> rfl

theorem unlink (tree : Tree) (parent : NodeId) (position : Nat) (child : Handle) :
    KeepsForms tree (tree.unlink parent position child) :=
  (modify tree (some parent) (Node.clearSlot_form · position)).trans (release ..)

theorem removeChild (tree : Tree) (parent : NodeId) (child : Handle) :
    KeepsForms tree (tree.removeChild parent child) := by
  unfold Tree.removeChild
  split
  · exact refl tree
  · split
    · exact refl tree
    · exact (unlink ..).trans (refreshIfList ..)

theorem detach (tree : Tree) (child : Handle) : KeepsForms tree (tree.detach child) := by
  unfold Tree.detach
  split
  · exact refl tree
  · exact removeChild ..

theorem place (tree : Tree) (parent child : NodeId) (old : Handle)
    (fill : List Handle → List Handle) : KeepsForms tree (tree.place parent child old fill) := by
  unfold Tree.place
  exact (modify _ _ (by exact fun _ => rfl)).trans
    ((modify _ _ (Node.withSlots_form · _)).trans (release ..))

end KeepsForms

theorem removeAt_eq {removed : Handle} (isList : (tree.family? (some list)).isSome)
    (there : (tree.slots (some list))[position]? = some removed) :
    tree.removeAt (some list) position =
      ((tree.unlink list position removed).recomputeListSpan (some list), removed) := by
  unfold removeAt elements
  simp only [isList, if_true, there]

theorem removeAt_cases (tree : Tree) (handle : Handle) (position : Nat) :
    tree.removeAt handle position = (tree, none) ∨
      ∃ list removed, handle = some list ∧ (tree.family? (some list)).isSome ∧
        (tree.slots (some list))[position]? = some removed ∧
        tree.removeAt handle position =
          ((tree.unlink list position removed).recomputeListSpan (some list), removed) := by
  unfold removeAt
  split
  · next list removed found =>
    unfold elements at found
    split at found
    · next isList => exact .inr ⟨list, removed, rfl, isList, found, rfl⟩
    · cases found
  · exact .inl rfl

theorem adopt_slots (tree : Tree) (parent child : NodeId) (place : Handle) :
    (tree.adopt parent (some child)).slots place = (tree.detach (some child)).slots place :=
  slots_modify fun _ => rfl

theorem adopt_family? (tree : Tree) (parent child : NodeId) (place : Handle) :
    (tree.adopt parent (some child)).family? place = (tree.detach (some child)).family? place :=
  family?_modify fun _ => rfl

theorem of_guard {condition : Prop} [Decidable condition] {passed : Unit}
    (allowed : (guard condition : Option Unit) = some passed) : condition := by
  by_contra refused
  rw [guard, if_neg refused] at allowed
  cases allowed

theorem not_encloses_of_guard {outer : Handle} {inner : NodeId} {passed : Unit}
    (allowed : guard (!tree.encloses outer inner) = some passed) :
    tree.encloses outer inner = false :=
  by simpa using of_guard allowed

/-- A replacement is of a child that is there. It does nothing, removes the child, or puts
another in its place. -/
theorem replaceChild_cases {old new : Handle}
    (replaced : tree.replaceChild handle old new = some after) :
    ∃ parent gone, handle = some parent ∧ old = some gone ∧
      some gone ∈ tree.slots (some parent) ∧
      (old = new ∧ after = tree ∨ new = none ∧ after = tree.removeChild parent (some gone) ∨
        ∃ child node position, new = some child ∧ gone ≠ child ∧
          tree.encloses (some child) parent = false ∧ tree.get? (some parent) = some node ∧
          ((tree.detach (some child)).slots (some parent))[position]? = some (some gone) ∧
          after = (((tree.detach (some child)).place parent child (some gone)
            (·.set position (some child))).refreshIfList parent node).widenAncestors
              (some child)) := by
  simp only [replaceChild, bind, Option.bind_eq_some_iff] at replaced
  obtain ⟨parent, rfl, node, found, first, slot, replaced⟩ := replaced
  obtain ⟨gone, rfl, held⟩ : ∃ gone, old = some gone ∧ some gone ∈ node.slots := by
    cases old with
    | none => simp [Node.slotOf?] at slot
    | some gone => exact ⟨gone, rfl, List.isSome_idxOf?.mp (Option.isSome_of_mem slot)⟩
  refine ⟨parent, gone, rfl, rfl, slots_of_get? found ▸ held, ?_⟩
  split at replaced
  · next same => exact .inl ⟨same, (Option.some.inj replaced).symm⟩
  next distinct =>
  cases new with
  | none => exact .inr (.inl ⟨rfl, (Option.some.inj replaced).symm⟩)
  | some child =>
    simp only [Option.isNone_some, Bool.false_eq_true, if_false, Option.bind_eq_some_iff]
      at replaced
    obtain ⟨_, allowed, moved, stands, position, there, replaced⟩ := replaced
    refine .inr (.inr ⟨child, node, position, rfl, fun same => distinct (congrArg some same),
      not_encloses_of_guard allowed, found, ?_, (Option.some.inj replaced).symm⟩)
    rw [← adopt_slots tree parent, slots_of_get? stands]
    exact Node.getElem?_of_slotOf? there

/-- Before which of the other elements a node is put that goes into a list before a position.
If it stood ahead of that in the list, the position comes one nearer when it leaves. -/
def placeFor (tree : Tree) (list : NodeId) (position : Nat) (node : Handle) : Nat :=
  if tree.parentOf node = some list then
    match (tree.elements (some list)).idxOf? node with
    | some current => if current < position then position - 1 else position
    | none => position
  else position

/-- An insertion puts the child between two elements that are there once it has left its
old place. -/
theorem insertElement_cases
    (inserted : tree.insertElement list position (some child) = some after) :
    tree.encloses (some child) list = false ∧
      ((tree.detach (some child)).family? (some list)).isSome ∧
      ∃ place fitted, place = min (tree.placeFor list position (some child))
          ((tree.detach (some child)).slots (some list)).length ∧
        after = fitted.widenAncestors (some list) ∧
        let placed := (tree.detach (some child)).place list child none
          (·.insertIdx place (some child))
        fitted = if ((tree.detach (some child)).slots (some list)).isEmpty then
            placed.recomputeListSpan (some list)
          else placed.widenOver (some list) (some child) := by
  simp only [insertElement, bind, Option.bind_eq_some_iff] at inserted
  obtain ⟨_, allowed, _, isList, inserted⟩ := inserted
  have family : ((tree.detach (some child)).family? (some list)).isSome := by
    rw [← adopt_family? tree list]
    exact of_guard isList
  have others : (tree.adopt list (some child)).elements (some list) =
      (tree.detach (some child)).slots (some list) := by
    rw [elements, adopt_family?, if_pos family, adopt_slots]
  rw [others] at inserted
  exact ⟨not_encloses_of_guard allowed, family, _, _, rfl, (Option.some.inj inserted).symm, rfl⟩

theorem insert_cases {behind : Nat → Nat} {node : Handle}
    (inserted : tree.insertBy behind handle position node = some after) :
    ∃ list child family, handle = some list ∧ node = some child ∧
      tree.family? (some list) = some family ∧ tree.encloses (some child) list = false ∧
      (tree.family? (some child) = some family ∧
          after = tree.moveElements behind list child (tree.slots (some child)).length position ∨
        tree.family? (some child) ≠ some family ∧
          tree.insertElement list position (some child) = some after) := by
  simp only [insertBy, bind, Option.bind_eq_some_iff] at inserted
  obtain ⟨family, isList, list, rfl, child, rfl, _, allowed, inserted⟩ := inserted
  refine ⟨list, child, family, rfl, rfl, isList, not_encloses_of_guard allowed, ?_⟩
  split at inserted
  · next same =>
    rw [elements, if_pos (Option.isSome_of_eq_some same)] at inserted
    exact .inl ⟨same, (Option.some.inj inserted).symm⟩
  · next other => exact .inr ⟨other, inserted⟩

theorem setElement_cases {node : Handle}
    (set : tree.setElement handle position node = some after) :
    after = (tree.removeAt handle position).1 ∨
      ∃ old, tree.element handle position = old ∧
        tree.replaceChild handle old node = some after := by
  simp only [setElement, bind, Option.bind_eq_some_iff] at set
  obtain ⟨old, element, set⟩ := set
  split at set
  · exact .inl (Option.some.inj set).symm
  · exact .inr ⟨_, element, set⟩

theorem setChild_cases {new : Handle} (set : tree.setChild handle position new = some after) :
    after = tree ∨ after = (tree.removeAt handle position).1 ∨
      (∃ old, ((tree.family? handle).isSome → tree.element handle position = old) ∧
        tree.replaceChild handle old new = some after) ∨
      ∃ parent child, handle = some parent ∧ new = some child ∧
        tree.family? (some parent) = none ∧
        (tree.slots (some parent))[position]? = some none ∧
        tree.encloses (some child) parent = false ∧
        after = ((tree.detach (some child)).place parent child none
          (·.set position (some child))).widenAncestors (some child) := by
  simp only [setChild, bind, Option.bind_eq_some_iff] at set
  obtain ⟨node, found, set⟩ := set
  split at set
  · rcases setElement_cases set with removed | ⟨old, element, replaced⟩
    · exact .inr (.inl removed)
    · exact .inr (.inr (.inl ⟨old, fun _ => element, replaced⟩))
  next fixed =>
  have family : tree.family? handle = none := by
    rw [family?, found]
    simpa [Node.isList, Form.isList] using fixed
  simp only [Option.bind_eq_some_iff] at set
  obtain ⟨_, inside, set⟩ := set
  split at set
  · refine .inr (.inr (.inl ⟨_, fun isList => ?_, set⟩))
    rw [family] at isList
    cases isList
  next empty =>
  split at set
  · exact .inl (Option.some.inj set).symm
  next given =>
  simp only [Option.bind_eq_some_iff] at set
  obtain ⟨parent, rfl, _, allowed, set⟩ := set
  obtain ⟨child, rfl⟩ := Option.ne_none_iff_exists'.mp (mt Option.isNone_iff_eq_none.mpr given)
  refine .inr (.inr (.inr ⟨parent, child, rfl, rfl, family, ?_, not_encloses_of_guard allowed,
    (Option.some.inj set).symm⟩))
  have bound : position < node.slots.length := of_guard inside
  rw [slots_of_get? found, List.getElem?_eq_getElem bound]
  rw [Node.slot, List.getElem?_eq_getElem bound] at empty
  exact congrArg some (Option.not_isSome_iff_eq_none.mp empty)

/-- Slots and parents still agree. The only new link, if there is one, goes from `child`
up to `parent`. -/
structure Moved (before after : Tree) (parent : NodeId) (child : Handle) : Prop where
  owned : after.Owned
  size : after.size = before.size
  family? : ∀ id, after.family? id = before.family? id
  link : ∀ id above, after.parentOf (some id) = some above →
    before.parentOf (some id) = some above ∨ child = some id ∧ above = parent

namespace Moved

variable {before middle : Tree} {old : Handle}

theorem refl (owned : tree.Owned) (parent : NodeId) (child : Handle) :
    Moved tree tree parent child :=
  ⟨owned, rfl, fun _ => rfl, fun _ _ => .inl⟩

theorem respanned (moved : Moved before middle parent handle)
    (respanned : Respanned middle after) : Moved before after parent handle where
  owned := moved.owned.respanned respanned
  size := respanned.size.trans moved.size
  family? id := (respanned.family? id).trans (moved.family? id)
  link id above linked := moved.link id above (respanned.parentOf _ ▸ linked)

theorem of_relinked (relinked : Relinked before after child none) (owned : after.Owned)
    (parent : NodeId) : Moved before after parent none where
  owned := owned
  size := relinked.size
  family? := relinked.family?
  link id above linked := .inl (relinked.links id above linked)

theorem placed (moved : Moved before middle parent none)
    (placed : Placed middle after parent child old) (owned : after.Owned) :
    Moved before after parent (some child) where
  owned := owned
  size := placed.size.trans moved.size
  family? id := (placed.family? id).trans (moved.family? id)
  link id above linked := by
    rw [placed.parentOf] at linked
    split at linked
    · cases linked
    split at linked
    · next same => exact .inr ⟨congrArg some same.symm, (Option.some.inj linked).symm⟩
    · exact .inl ((moved.link id above linked).resolve_right (by simp))

end Moved

theorem Owned.removeChild (owned : tree.Owned)
    (held : tree.parentOf (some child) = some parent) (target : NodeId) :
    Moved tree (tree.removeChild parent (some child)) target none := by
  obtain ⟨node, position, found, there, counts, same⟩ := owned.upTo.removeChild held
  have relinked := unlink_relinked held position
  have still := (owned.upTo.unlink held found there counts).whole (Nat.le_of_eq relinked.size)
  rw [same]
  exact (Moved.of_relinked relinked still target).respanned (.refreshIfList _ parent node)

theorem detach_eq_removeChild (held : tree.parentOf (some child) = some parent) :
    tree.detach (some child) = tree.removeChild parent (some child) := by
  rw [Tree.detach, held]

theorem Owned.detach_moved (owned : tree.Owned) (child target : NodeId) :
    Moved tree (tree.detach (some child)) target none := by
  obtain ⟨free, relinked, still, respanned⟩ := owned.detach child
  exact (Moved.of_relinked relinked still target).respanned respanned

theorem Owned.detach_parentOf (owned : tree.Owned) (child id : NodeId) :
    (tree.detach (some child)).parentOf (some id) =
      if id = child then none else tree.parentOf (some id) := by
  obtain ⟨free, relinked, still, respanned⟩ := owned.detach child
  rw [respanned.parentOf, relinked.parentOf]

theorem Owned.detach_free (owned : tree.Owned) (child : NodeId) :
    (tree.detach (some child)).parentOf (some child) = none := by
  rw [owned.detach_parentOf, if_pos rfl]

/-- Where nodes have their parents once a child has moved. -/
theorem Owned.parentOf_placed {placed : Tree} {old : Handle} (owned : tree.Owned)
    (place : Placed (tree.detach (some child)) placed parent child old) (id : NodeId) :
    placed.parentOf (some id) =
      if old = some id then none else if id = child then some parent
      else tree.parentOf (some id) := by
  rw [place.parentOf, owned.detach_parentOf]
  split
  · rfl
  · split <;> rfl

/-- An empty slot of a node that is no list stays empty when a child is detached. -/
theorem detach_empty (child : NodeId) (fixed : tree.family? (some parent) = none)
    (empty : (tree.slots (some parent))[position]? = some none) :
    ((tree.detach (some child)).slots (some parent))[position]? = some none := by
  unfold Tree.detach
  split
  · exact empty
  next previous _ =>
  by_cases member : some child ∈ tree.slots (some previous)
  · obtain ⟨node, cleared, found, -, -, same⟩ := removeChild_eq member
    rw [same, (Respanned.refreshIfList _ previous node).slots]
    by_cases own : parent = previous
    · subst own
      rw [family?_of_get? found] at fixed
      rw [slots_of_get? found] at empty
      obtain ⟨inside, -⟩ := List.getElem?_eq_some_iff.mp empty
      rw [unlink_slots_self found, Node.clearSlot_of_fixed fixed, List.getElem?_set, empty]
      split
      · next first => rw [if_pos (first ▸ inside)]
      · rfl
    · rw [unlink_slots_ne own, empty]
  · rw [removeChild_of_not_mem member, empty]

theorem lt_size_of_family? (isList : (tree.family? (some list)).isSome) : list < tree.size := by
  obtain ⟨family, same⟩ := Option.isSome_iff_exists.mp isList
  obtain ⟨node, found, -⟩ := Option.bind_eq_some_iff.mp same
  exact lt_size_of_get? found

/-- A child may be moved to `parent` if it does not enclose it. -/
def Permits (tree : Tree) (parent : NodeId) (handle : Handle) : Prop :=
  ∀ child, handle = some child → tree.encloses (some child) parent = false

/-- Children have been moved to `parent`, one after another, and others let go. -/
def Moves (parent : NodeId) : Tree → Tree → Prop :=
  Relation.ReflTransGen fun before after =>
    ∃ child, before.Permits parent child ∧ Moved before after parent child

theorem Moved.moves (moved : Moved tree after parent none) : Moves parent tree after :=
  .single ⟨none, nofun, moved⟩

theorem Moved.moves_of_permits {middle : Tree} (moved : Moved tree middle parent (some child))
    (apart : tree.encloses (some child) parent = false) (respanned : Respanned middle after) :
    Moves parent tree after := by
  refine .single ⟨some child, ?_, moved.respanned respanned⟩
  rintro id same
  obtain rfl := Option.some.inj same
  exact apart

theorem Moves.owned {before : Tree} (moves : Moves parent before after) (owned : before.Owned) :
    after.Owned ∧ after.size = before.size ∧ ∀ id, after.family? id = before.family? id := by
  induction moves with
  | refl => exact ⟨owned, rfl, fun _ => rfl⟩
  | tail _ step ih =>
    obtain ⟨child, -, moved⟩ := step
    obtain ⟨-, size, family⟩ := ih
    exact ⟨moved.owned, moved.size.trans size, fun id => (moved.family? id).trans (family id)⟩

/-- Taking an element out of a list. -/
theorem Owned.unlink_element {removed : Handle} (owned : tree.Owned)
    (isList : (tree.family? (some list)).isSome)
    (there : (tree.slots (some list))[position]? = some removed) :
    ∃ child, removed = some child ∧ (tree.unlink list position removed).Owned ∧
      Relinked tree (tree.unlink list position removed) child none := by
  have member := List.mem_of_getElem? there
  obtain ⟨child, rfl⟩ : ∃ child, removed = some child := by
    cases removed with
    | none => exact absurd member (owned.dense list isList)
    | some child => exact ⟨child, rfl⟩
  have held := owned.mem_slots_iff.mp member
  obtain ⟨node, found⟩ : ∃ node, tree.get? (some list) = some node :=
    ⟨_, Array.getElem?_eq_getElem (lt_size_of_family? isList)⟩
  have counts : list = tree.size → position < 0 := fun outside =>
    absurd outside (Nat.ne_of_lt (lt_size_of_family? isList))
  rw [slots_of_get? found] at there
  have relinked := unlink_relinked held position
  exact ⟨child, rfl, (owned.upTo.unlink held found there counts).whole
    (Nat.le_of_eq relinked.size), relinked⟩

theorem Owned.removeAt (owned : tree.Owned) (handle : Handle) (position : Nat) (target : NodeId) :
    Moved tree (tree.removeAt handle position).1 target none := by
  rcases removeAt_cases tree handle position with same | ⟨list, removed, rfl, isList, there, same⟩
  · rw [same]
    exact .refl owned target none
  · obtain ⟨child, rfl, still, relinked⟩ := owned.unlink_element isList there
    rw [same]
    exact (Moved.of_relinked relinked still target).respanned (.recomputeListSpan _ _)

/-- Replacing one child by another: the new one leaves its old place, takes the slot of
the one that goes, and then spans are brought up to date. -/
theorem Owned.replaceChild_steps {old new : Handle} (owned : tree.Owned)
    (present : ∀ child, new = some child → child < tree.size)
    (replaced : tree.replaceChild handle old new = some after) :
    old = new ∧ after = tree ∨
      ∃ parent gone, handle = some parent ∧ old = some gone ∧
        tree.parentOf (some gone) = some parent ∧
        (new = none ∧ after = tree.removeChild parent (some gone) ∨
          ∃ child node placed, new = some child ∧ gone ≠ child ∧
            tree.encloses (some child) parent = false ∧ tree.get? (some parent) = some node ∧
            Placed (tree.detach (some child)) placed parent child (some gone) ∧ placed.Owned ∧
            after = (placed.refreshIfList parent node).widenAncestors (some child)) := by
  obtain ⟨parent, gone, rfl, rfl, member, same | rest⟩ := replaceChild_cases replaced
  · exact .inl same
  have held := owned.mem_slots_iff.mp member
  refine .inr ⟨parent, gone, rfl, rfl, held, ?_⟩
  rcases rest with removed | ⟨child, node, position, rfl, distinct, apart, found, there, same⟩
  · exact .inl removed
  have detached := owned.detach_moved child parent
  have inside : child < (tree.detach (some child)).size :=
    Nat.lt_of_lt_of_eq (present child rfl) detached.size.symm
  have room : parent < (tree.detach (some child)).size :=
    Nat.lt_of_lt_of_eq (lt_size_of_get? found) detached.size.symm
  have replaces : ∀ id, some gone = some id →
      id ≠ child ∧ (tree.detach (some child)).parentOf (some id) = some parent := by
    rintro id same
    obtain rfl := Option.some.inj same
    rw [owned.detach_parentOf, if_neg distinct]
    exact ⟨distinct, held⟩
  refine .inr ⟨child, node, _, rfl, distinct, apart, found, place_placed _ inside replaces,
    detached.owned.place (owned.detach_free child) inside room (takes_set _ _ _ _) replaces
      ?_ ?_, same⟩
  · intro id
    simpa using count_set_add there (some child) (some id)
  · intro isList member
    rcases List.mem_or_eq_of_mem_set member with inside | same
    · exact detached.owned.dense parent isList inside
    · cases same

/-- Inserting a child into a list: it leaves its old place, becomes an element, and then
spans are brought up to date. -/
theorem Owned.insertElement_steps (owned : tree.Owned) (present : child < tree.size)
    (inserted : tree.insertElement list position (some child) = some after) :
    tree.encloses (some child) list = false ∧ (tree.family? (some list)).isSome ∧
      ∃ placed fitted, Placed (tree.detach (some child)) placed list child none ∧ placed.Owned ∧
        after = fitted.widenAncestors (some list) ∧
        fitted = if ((tree.detach (some child)).slots (some list)).isEmpty then
            placed.recomputeListSpan (some list)
          else placed.widenOver (some list) (some child) := by
  obtain ⟨apart, isList, place, fitted, least, same, fit⟩ := insertElement_cases inserted
  have within : place ≤ ((tree.detach (some child)).slots (some list)).length :=
    least ▸ Nat.min_le_right _ _
  have detached := owned.detach_moved child list
  have inside : child < (tree.detach (some child)).size :=
    Nat.lt_of_lt_of_eq present detached.size.symm
  refine ⟨apart, detached.family? _ ▸ isList, _, fitted, place_placed _ inside nofun,
    detached.owned.place (owned.detach_free child) inside (lt_size_of_family? isList)
      (takes_of_isList isList _) nofun ?_ ?_, same, fit⟩
  · intro id
    simpa using count_insertIdx within (some child) (some id)
  · intro isList member
    rcases (List.mem_insertIdx within).mp member with same | inside
    · cases same
    · exact detached.owned.dense list isList inside

/-- Filling an empty slot: the child leaves its old place, takes the slot, and then the
spans above are widened. -/
theorem Owned.setChild_steps {new : Handle} (owned : tree.Owned)
    (present : ∀ child, new = some child → child < tree.size)
    (set : tree.setChild handle position new = some after) :
    after = tree ∨ after = (tree.removeAt handle position).1 ∨
      (∃ old, ((tree.family? handle).isSome → tree.element handle position = old) ∧
        tree.replaceChild handle old new = some after) ∨
      ∃ parent child placed, handle = some parent ∧ new = some child ∧
        tree.family? (some parent) = none ∧ tree.encloses (some child) parent = false ∧
        Placed (tree.detach (some child)) placed parent child none ∧ placed.Owned ∧
        after = placed.widenAncestors (some child) := by
  rcases setChild_cases set with same | removed | replaced |
    ⟨parent, child, rfl, rfl, fixed, empty, apart, same⟩
  · exact .inl same
  · exact .inr (.inl removed)
  · exact .inr (.inr (.inl replaced))
  have detached := owned.detach_moved child parent
  have inside : child < (tree.detach (some child)).size :=
    Nat.lt_of_lt_of_eq (present child rfl) detached.size.symm
  have still := detach_empty child fixed empty
  have room : parent < (tree.detach (some child)).size := by
    by_contra outside
    rw [slots_outside (Nat.le_of_not_lt outside)] at still
    cases still
  refine .inr (.inr (.inr ⟨parent, child, _, rfl, rfl, fixed, apart,
    place_placed _ inside nofun,
    detached.owned.place (owned.detach_free child) inside room (takes_set _ _ _ _) nofun
      ?_ ?_, same⟩))
  · intro id
    simpa using count_set_add still (some child) (some id)
  · intro isList
    rw [detached.family?, fixed] at isList
    cases isList

theorem Owned.replaceChild {old new : Handle} (owned : tree.Owned)
    (present : ∀ child, new = some child → child < tree.size)
    (replaced : tree.replaceChild (some parent) old new = some after) :
    Moves parent tree after := by
  rcases owned.replaceChild_steps present replaced with
    ⟨-, rfl⟩ | ⟨holder, gone, same, -, held, ⟨-, rfl⟩ |
      ⟨child, node, placed, rfl, -, apart, -, place, still, rfl⟩⟩
  · exact .refl
  · exact (owned.removeChild held parent).moves
  · obtain rfl := Option.some.inj same
    have moved := (owned.detach_moved child parent).placed place still
    exact moved.moves_of_permits apart
      (.trans (.refreshIfList _ parent node) (.widenAncestors _ _))

theorem Owned.insertElement (owned : tree.Owned) (present : child < tree.size)
    (inserted : tree.insertElement list position (some child) = some after) :
    Moves list tree after := by
  obtain ⟨apart, -, placed, fitted, place, still, rfl, fit⟩ :=
    owned.insertElement_steps present inserted
  have moved := (owned.detach_moved child list).placed place still
  have respanned : Respanned placed fitted := fit ▸ .fitList placed _ _ _
  exact moved.moves_of_permits apart (respanned.trans (.widenAncestors _ _))

theorem Owned.setElement {node : Handle} (owned : tree.Owned)
    (present : ∀ child, node = some child → child < tree.size)
    (set : tree.setElement (some list) position node = some after) : Moves list tree after := by
  rcases setElement_cases set with rfl | ⟨old, -, replaced⟩
  · exact (owned.removeAt (some list) position list).moves
  · exact owned.replaceChild present replaced

theorem Owned.setChild {new : Handle} (owned : tree.Owned)
    (present : ∀ child, new = some child → child < tree.size)
    (set : tree.setChild (some parent) position new = some after) : Moves parent tree after := by
  rcases owned.setChild_steps present set with rfl | rfl | ⟨old, -, replaced⟩ |
    ⟨holder, child, placed, same, rfl, -, apart, place, still, rfl⟩
  · exact .refl
  · exact (owned.removeAt (some parent) position parent).moves
  · exact owned.replaceChild present replaced
  · obtain rfl := Option.some.inj same
    have moved := (owned.detach_moved child parent).placed place still
    exact moved.moves_of_permits apart (.widenAncestors _ _)

/-- Inserting a child that belongs to nobody leaves the slots of other nodes alone. -/
theorem Owned.insertElement_slots {other : NodeId} (owned : tree.Owned)
    (present : child < tree.size) (free : tree.parentOf (some child) = none)
    (inserted : tree.insertElement list position (some child) = some after)
    (distinct : other ≠ list) : after.slots (some other) = tree.slots (some other) := by
  obtain ⟨-, -, placed, fitted, place, -, rfl, fit⟩ := owned.insertElement_steps present inserted
  have stays : tree.detach (some child) = tree := by
    rw [Tree.detach, free]
  have respanned : Respanned placed fitted := fit ▸ .fitList placed _ _ _
  rw [(respanned.trans (.widenAncestors _ _)).slots, place.slots other distinct, stays]

/-- Moving elements keeps whatever is kept by taking the first element out of the source
and by inserting it, when it belongs to nobody, into the list. -/
theorem Owned.moveElements_induct {behind : Nat → Nat} {motive : Tree → Prop} {source count : Nat}
    (owned : tree.Owned) (distinct : source ≠ list)
    (isList : (tree.family? (some source)).isSome)
    (length : (tree.slots (some source)).length = count) (begins : motive tree)
    (removes : ∀ tree, tree.Owned → motive tree → motive (tree.removeAt (some source) 0).1)
    (inserts : ∀ before tree after child position, motive before →
      before.parentOf (some child) = some source → tree.Owned → motive tree →
      child < tree.size → tree.parentOf (some child) = none →
      tree.insertElement list position (some child) = some after → motive after) :
    motive (tree.moveElements behind list source count position) := by
  induction count generalizing tree position with
  | zero => exact begins
  | succ count ih =>
    obtain ⟨removed, others, shape⟩ := List.exists_cons_of_length_eq_add_one length
    have there : (tree.slots (some source))[0]? = some removed := by rw [shape]; rfl
    obtain ⟨child, rfl⟩ : ∃ child, removed = some child := by
      cases removed with
      | none => exact absurd (List.mem_of_getElem? there) (owned.dense source isList)
      | some child => exact ⟨child, rfl⟩
    have held := owned.mem_slots_iff.mp (List.mem_of_getElem? there)
    have taken := removeAt_eq isList there
    have moved := owned.removeAt (some source) 0 list
    have kept := removes tree owned begins
    obtain ⟨rest, out⟩ : ∃ rest, tree.removeAt (some source) 0 = (rest, some child) := ⟨_, taken⟩
    rw [out] at moved kept taken
    have rest_eq : rest = (tree.unlink source 0 (some child)).recomputeListSpan (some source) :=
      (Prod.mk.inj taken).1
    have respanned : Respanned (tree.unlink source 0 (some child)) rest :=
      rest_eq ▸ .recomputeListSpan _ _
    have free : rest.parentOf (some child) = none := by
      rw [respanned.parentOf, (unlink_relinked held 0).parentOf, if_pos rfl]
    have stillList : (rest.family? (some source)).isSome := by
      rw [moved.family?]
      exact isList
    have shorter : (rest.slots (some source)).length = count := by
      obtain ⟨node, found⟩ : ∃ node, tree.get? (some source) = some node :=
        ⟨_, Array.getElem?_eq_getElem (lt_size_of_family? isList)⟩
      rw [family?_of_get? found] at isList
      rw [slots_of_get? found] at shape
      rw [respanned.slots, unlink_slots_self found, Node.clearSlot_of_list isList, shape]
      rw [slots_of_get? found, shape] at length
      simpa using length
    have inside : child < rest.size := Nat.lt_of_lt_of_eq (child_lt held) moved.size.symm
    unfold moveElements
    rw [out]
    dsimp only
    split
    · next inserted same =>
      have moves := moved.owned.insertElement inside same
      obtain ⟨stillOwned, -, family⟩ := moves.owned moved.owned
      refine ih stillOwned ?_ ?_ (inserts tree rest inserted child position begins held moved.owned
        kept inside free same)
      · rw [family]
        exact stillList
      · rw [moved.owned.insertElement_slots inside free same distinct]
        exact shorter
    · exact ih moved.owned stillList shorter kept

theorem not_encloses_self_ne (apart : tree.encloses (some child) parent = false) :
    child ≠ parent := by
  rintro rfl
  simp [encloses] at apart

theorem Owned.insert {behind : Nat → Nat} {node : Handle} (owned : tree.Owned)
    (present : ∀ child, node = some child → child < tree.size)
    (inserted : tree.insertBy behind (some list) position node = some after) :
    Moves list tree after := by
  obtain ⟨target, child, family, same, rfl, isList, apart, rest⟩ := insert_cases inserted
  obtain rfl := Option.some.inj same
  rcases rest with ⟨alike, rfl⟩ | ⟨-, inserted⟩
  · refine owned.moveElements_induct (not_encloses_self_ne apart) (Option.isSome_of_eq_some alike)
      rfl .refl ?_ ?_
    · intro middle middleOwned moves
      exact moves.trans (middleOwned.removeAt _ _ _).moves
    · intro _ middle next other place _ _ middleOwned moves inside free inserted
      exact moves.trans (middleOwned.insertElement inside inserted)
  · exact owned.insertElement (present child rfl) inserted

theorem Owned.appendAll {nodes : List Handle} (owned : tree.Owned)
    (present : ∀ child, some child ∈ nodes → child < tree.size) :
    Moves list tree (tree.appendAll (some list) nodes) := by
  induction nodes generalizing tree with
  | nil => exact .refl
  | cons node rest ih =>
    have step : Moves list tree ((tree.append (some list) node).getD tree) := by
      cases appended : tree.append (some list) node with
      | none => exact .refl
      | some next =>
        exact owned.insert (fun child same => present child (by simp [same])) appended
    obtain ⟨still, size, -⟩ := step.owned owned
    refine step.trans (ih still ?_)
    intro child member
    rw [size]
    exact present child (List.mem_cons_of_mem _ member)

end ScriptSyntax.Tree
