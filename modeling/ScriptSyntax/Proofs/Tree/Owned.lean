import ScriptSyntax.Proofs.Tree.Links
import Mathlib.Data.List.Perm.Basic

/-! Slots and parents agree: a node is in one slot of its parent and in no other slot. A
node that is being made may name children that are not yet its own; its slots count only
as far as they are filled. -/
namespace ScriptSyntax

section Slots

variable {slots : List Handle} {node : Node} {position : Nat} {old : Handle}

theorem count_eraseIdx_add (found : slots[position]? = some old) (child : Handle) :
    (slots.eraseIdx position).count child + (if old = child then 1 else 0) =
      slots.count child := by
  obtain ⟨inside, same⟩ := List.getElem?_eq_some_iff.mp found
  have taken := (List.getElem_cons_eraseIdx_perm inside).count_eq child
  rw [same, List.count_cons] at taken
  simpa only [beq_iff_eq] using taken

theorem count_set_add (found : slots[position]? = some old) (new child : Handle) :
    (slots.set position new).count child + (if old = child then 1 else 0) =
      slots.count child + (if new = child then 1 else 0) := by
  obtain ⟨inside, -⟩ := List.getElem?_eq_some_iff.mp found
  have erased := count_eraseIdx_add found child
  have placed := (List.set_perm_cons_eraseIdx inside new).count_eq child
  rw [List.count_cons] at placed
  simp only [beq_iff_eq] at placed
  omega

theorem count_insertIdx (inside : position ≤ slots.length) (new child : Handle) :
    (slots.insertIdx position new).count child =
      slots.count child + (if new = child then 1 else 0) := by
  have placed := (List.perm_insertIdx new slots inside).count_eq child
  rw [List.count_cons] at placed
  simpa only [beq_iff_eq] using placed

theorem Node.clearSlot_parent (node : Node) (position : Nat) :
    (node.clearSlot position).parent = node.parent := by
  unfold Node.clearSlot
  split <;> exact node.withSlots_parent _

theorem Node.clearSlot_span (node : Node) (position : Nat) :
    (node.clearSlot position).span = node.span := by
  unfold Node.clearSlot
  split <;> exact node.withSlots_span _

theorem Node.clearSlot_form (node : Node) (position : Nat) :
    (node.clearSlot position).form = node.form := by
  unfold Node.clearSlot
  split <;> exact node.withSlots_form _

theorem Node.clearSlot_of_fixed (fixed : node.form.family? = none) (position : Nat) :
    (node.clearSlot position).slots = node.slots.set position none := by
  simp [Node.clearSlot, Node.isList, Form.isList, fixed]

theorem Node.clearSlot_of_list (isList : node.isList) (position : Nat) :
    (node.clearSlot position).slots = node.slots.eraseIdx position := by
  rw [Node.clearSlot, if_pos isList, Node.withSlots_slots (Form.admits_of_isList isList _)]

theorem Node.none_not_mem_clearSlot (list : node.form.family?.isSome)
    (dense : none ∉ node.slots) : none ∉ (node.clearSlot position).slots := by
  rw [Node.clearSlot_of_list list]
  exact fun member => dense (List.mem_of_mem_eraseIdx member)

theorem Node.count_clearSlot (found : node.slots[position]? = some old) (child : NodeId) :
    (node.clearSlot position).slots.count (some child) +
      (if old = some child then 1 else 0) = node.slots.count (some child) := by
  by_cases isList : node.isList
  · rw [Node.clearSlot_of_list isList]
    exact count_eraseIdx_add found (some child)
  · rw [Node.clearSlot, if_neg isList, Node.setSlot_slots]
    simpa using count_set_add found none (some child)

theorem Node.getElem?_of_slotOf? {child : NodeId}
    (first : node.slotOf? (some child) = some position) :
    node.slots[position]? = some (some child) := by
  obtain ⟨inside, same, -⟩ := List.idxOf?_eq_some_iff.mp first
  exact List.getElem?_eq_some_iff.mpr ⟨inside, same⟩

/-- The first slot that holds a child. -/
theorem Node.slotOf?_eq_some {child : NodeId} (held : some child ∈ node.slots) :
    ∃ position, node.slotOf? (some child) = some position ∧
      node.slots[position]? = some (some child) ∧
      ∀ filled, some child ∈ node.slots.take filled → position < filled := by
  obtain ⟨position, found⟩ := Option.isSome_iff_exists.mp (List.isSome_idxOf?.mpr held)
  obtain ⟨_, _, first⟩ := List.idxOf?_eq_some_iff.mp found
  refine ⟨position, found, getElem?_of_slotOf? found, ?_⟩
  intro filled early
  obtain ⟨earlier, within, sameThere⟩ := List.getElem_of_mem early
  rw [List.length_take] at within
  rw [List.getElem_take] at sameThere
  by_contra late
  exact first earlier (by omega) sameThere

end Slots

namespace Tree

variable {tree before after : Tree} {fresh parent child : NodeId} {filled : Nat}

/-- The slots of a node as far as they are filled: all of them, but for the node that is
being made. -/
def filledSlots (tree : Tree) (fresh : NodeId) (filled : Nat) (id : NodeId) : List Handle :=
  if id = fresh then (tree.slots (some id)).take filled else tree.slots (some id)

/-- Every child is in one slot of its parent and in no other filled slot, and no element
of a list is missing. The node that is being made is no list. -/
structure OwnedUpTo (tree : Tree) (fresh : NodeId) (filled : Nat) : Prop where
  held : ∀ parent child, (tree.filledSlots fresh filled parent).count (some child) =
    if tree.parentOf (some child) = some parent then 1 else 0
  dense : ∀ list, (tree.family? (some list)).isSome → none ∉ tree.slots (some list)
  fixed : tree.family? (some fresh) = none

/-- Every child is in one slot of its parent and in no other slot, and no element of a
list is missing. -/
structure Owned (tree : Tree) : Prop where
  held : ∀ parent child, (tree.slots (some parent)).count (some child) =
    if tree.parentOf (some child) = some parent then 1 else 0
  dense : ∀ list, (tree.family? (some list)).isSome → none ∉ tree.slots (some list)

theorem slots_of_get? {node : Node} (found : tree.get? (some parent) = some node) :
    tree.slots (some parent) = node.slots := by
  rw [slots, found]
  rfl

theorem family?_of_get? {node : Node} (found : tree.get? (some parent) = some node) :
    tree.family? (some parent) = node.form.family? := by
  rw [family?, found]
  rfl

theorem slots_outside (outside : tree.size ≤ parent) : tree.slots (some parent) = [] := by
  rw [slots, get?_eq_none outside]
  rfl

theorem Owned.upTo (owned : tree.Owned) : tree.OwnedUpTo tree.size 0 where
  held parent child := by
    rw [← owned.held parent child, filledSlots]
    split
    · next same => rw [same, slots_outside (Nat.le_refl _), List.take_nil]
    · rfl
  dense := owned.dense
  fixed := by
    rw [family?, get?_eq_none (Nat.le_refl _)]
    rfl

theorem OwnedUpTo.owned (owned : tree.OwnedUpTo fresh filled)
    (complete : (tree.slots (some fresh)).length ≤ filled) : tree.Owned where
  held parent child := by
    rw [← owned.held parent child, filledSlots]
    split
    · next same => rw [same, List.take_of_length_le complete]
    · rfl
  dense := owned.dense

theorem OwnedUpTo.mem_filledSlots (owned : tree.OwnedUpTo fresh filled)
    (held : tree.parentOf (some child) = some parent) :
    some child ∈ tree.filledSlots fresh filled parent := by
  have once := owned.held parent child
  rw [if_pos held] at once
  exact List.count_pos_iff.mp (by omega)

theorem Owned.mem_slots_iff (owned : tree.Owned) :
    some child ∈ tree.slots (some parent) ↔ tree.parentOf (some child) = some parent := by
  have count := owned.held parent child
  rw [← List.count_pos_iff, count]
  split
  · next held => simp [held]
  · next free => simp [free]

theorem Owned.mem_children_iff (owned : tree.Owned) :
    child ∈ tree.children (some parent) ↔ tree.parentOf (some child) = some parent := by
  rw [← owned.mem_slots_iff, children, slots]
  cases tree.get? (some parent) <;> simp [Node.children]

theorem OwnedUpTo.mem_slots_iff (owned : tree.OwnedUpTo fresh filled)
    (isList : (tree.family? (some parent)).isSome) :
    some child ∈ tree.slots (some parent) ↔ tree.parentOf (some child) = some parent := by
  have distinct : parent ≠ fresh := by
    rintro rfl
    rw [owned.fixed] at isList
    cases isList
  have count := owned.held parent child
  rw [filledSlots, if_neg distinct] at count
  rw [← List.count_pos_iff, count]
  split
  · next held => simp [held]
  · next free => simp [free]

theorem filledSlots_subset : tree.filledSlots fresh filled parent ⊆ tree.slots (some parent) := by
  unfold filledSlots
  split
  · exact List.take_subset _ _
  · exact List.Subset.refl _

theorem OwnedUpTo.parent_lt (owned : tree.OwnedUpTo fresh filled)
    (held : tree.parentOf (some child) = some parent) : parent < tree.size := by
  by_contra outside
  have member := filledSlots_subset (owned.mem_filledSlots held)
  rw [slots_outside (Nat.le_of_not_lt outside)] at member
  cases member

theorem child_lt (held : tree.parentOf (some child) = some parent) : child < tree.size := by
  obtain ⟨node, found, -⟩ := Option.bind_eq_some_iff.mp held
  exact lt_size_of_get? found

/-- A child that has left a slot of one parent, or come into one, has left that parent or come
to it; then its slots and its parent agree as before. -/
theorem held_of_counts (parent : NodeId) (gone came : Prop) [Decidable gone] [Decidable came]
    {shown shownAfter : NodeId → List Handle}
    (held : ∀ parent, (shown parent).count (some child) =
      if before.parentOf (some child) = some parent then 1 else 0)
    (elsewhere : ∀ other ≠ parent, shownAfter other = shown other)
    (here : (shownAfter parent).count (some child) + (if gone then 1 else 0) =
      (shown parent).count (some child) + (if came then 1 else 0))
    (free : came → before.parentOf (some child) = none) (one : gone → ¬ came)
    (moved : after.parentOf (some child) =
      if gone then none else if came then some parent else before.parentOf (some child)) :
    ∀ parent, (shownAfter parent).count (some child) =
      if after.parentOf (some child) = some parent then 1 else 0 := by
  intro other
  have count := held parent
  rw [moved]
  by_cases left : gone
  · rw [if_pos left, if_neg (one left)] at here
    have own : before.parentOf (some child) = some parent := by
      by_contra apart
      rw [if_neg apart] at count
      omega
    rw [if_pos own] at count
    rw [if_pos left, if_neg nofun]
    by_cases same : other = parent
    · rw [same]
      omega
    · rw [elsewhere other same, held, own, if_neg fun again => same (Option.some.inj again).symm]
  rw [if_neg left] at here ⊢
  by_cases arrived : came
  · rw [if_pos arrived] at here ⊢
    rw [free arrived, if_neg nofun] at count
    by_cases same : other = parent
    · rw [same, if_pos rfl]
      omega
    · rw [elsewhere other same, held, free arrived, if_neg nofun,
        if_neg fun again => same (Option.some.inj again).symm]
  · rw [if_neg arrived] at here ⊢
    by_cases same : other = parent
    · rw [same, ← count]
      omega
    · rw [elsewhere other same, held]

/-- One child has another parent. Only slots of the two parents may have changed, and no
span. -/
structure Relinked (before after : Tree) (child : NodeId) (parent : Handle) : Prop where
  size : after.size = before.size
  family? : ∀ id, after.family? id = before.family? id
  span? : ∀ id, after.span? id = before.span? id
  parentOf : ∀ id, after.parentOf (some id) =
    if id = child then parent else before.parentOf (some id)
  slots : ∀ id, before.parentOf (some child) ≠ some id → parent ≠ some id →
    after.slots (some id) = before.slots (some id)

theorem Relinked.links (relinked : Relinked before after child none) (id above : NodeId)
    (linked : after.parentOf (some id) = some above) :
    before.parentOf (some id) = some above := by
  rw [relinked.parentOf] at linked
  split at linked
  · cases linked
  · exact linked

theorem Relinked.refl (free : tree.parentOf (some child) = none) :
    Relinked tree tree child none where
  size := rfl
  family? _ := rfl
  span? _ := rfl
  parentOf id := by
    split
    · next same => rw [same, free]
    · rfl
  slots _ _ _ := rfl

theorem slots_withParent (tree : Tree) (child parent place : Handle) :
    (tree.modify child (·.withParent parent)).slots place = tree.slots place :=
  slots_modify fun _ => rfl

theorem family?_withParent (tree : Tree) (child parent place : Handle) :
    (tree.modify child (·.withParent parent)).family? place = tree.family? place :=
  family?_modify fun _ => rfl

theorem parentOf_withParent (present : child < tree.size) (parent : Handle) (id : NodeId) :
    (tree.modify (some child) (·.withParent parent)).parentOf (some id) =
      if id = child then parent else tree.parentOf (some id) := by
  rw [parentOf, parentOf, get?_modify]
  split
  · next same =>
    obtain ⟨node, found⟩ : ∃ node, tree.get? (some child) = some node :=
      ⟨_, Array.getElem?_eq_getElem present⟩
    rw [same, found]
    rfl
  · rfl

theorem parentOf_release (tree : Tree) (parent child id : NodeId) :
    (tree.release parent (some child)).parentOf (some id) =
      if id = child ∧ tree.parentOf (some child) = some parent then none
      else tree.parentOf (some id) := by
  unfold release
  by_cases same : id = child
  · subst same
    rw [parentOf, parentOf, get?_modify_self]
    cases tree.get? (some id) with
    | none => simp
    | some node =>
      by_cases own : node.parent = some parent <;> simp [own, Node.withParent]
  · rw [parentOf, get?_modify_ne same, if_neg (same ·.1)]
    rfl

theorem release_slots (tree : Tree) (parent : NodeId) (child place : Handle) :
    (tree.release parent child).slots place = tree.slots place :=
  slots_modify fun node => by split <;> rfl

theorem release_span? (tree : Tree) (parent : NodeId) (child place : Handle) :
    (tree.release parent child).span? place = tree.span? place :=
  span?_modify fun node => by split <;> rfl

theorem release_family? (tree : Tree) (parent : NodeId) (child place : Handle) :
    (tree.release parent child).family? place = tree.family? place :=
  family?_modify fun node => by split <;> rfl

theorem slots_modify_self {node : Node} {change : Node → Node}
    (found : tree.get? (some parent) = some node) :
    (tree.modify (some parent) change).slots (some parent) = (change node).slots := by
  rw [slots, get?_modify_self, found]
  rfl

theorem slots_modify_ne {change : Node → Node} {other : NodeId} (distinct : other ≠ parent) :
    (tree.modify (some parent) change).slots (some other) = tree.slots (some other) := by
  rw [slots, get?_modify_ne distinct]
  rfl

section Unlink

variable {node : Node} {position : Nat}

theorem unlink_slots_self (found : tree.get? (some parent) = some node) (child : Handle) :
    (tree.unlink parent position child).slots (some parent) = (node.clearSlot position).slots := by
  rw [unlink, release_slots, slots_modify_self found]

theorem unlink_slots_ne {other : NodeId} (distinct : other ≠ parent) (child : Handle) :
    (tree.unlink parent position child).slots (some other) = tree.slots (some other) := by
  rw [unlink, release_slots, slots_modify_ne distinct]

theorem unlink_family? (tree : Tree) (parent : NodeId) (position : Nat) (child place : Handle) :
    (tree.unlink parent position child).family? place = tree.family? place := by
  rw [unlink, release_family?]
  exact family?_modify fun other => congrArg Form.family? (other.clearSlot_form position)

theorem unlink_parentOf (tree : Tree) (parent id : NodeId) (position : Nat) (removed : Handle) :
    (tree.unlink parent position removed).parentOf (some id) =
      if removed = some id ∧ tree.parentOf (some id) = some parent then none
      else tree.parentOf (some id) := by
  have same (other : NodeId) : (tree.modify (some parent) (·.clearSlot position)).parentOf
      (some other) = tree.parentOf (some other) :=
    parentOf_modify (Node.clearSlot_parent · position)
  cases removed with
  | none => exact (same id).trans (if_neg nofun).symm
  | some child =>
    rw [unlink, parentOf_release, same, same]
    refine if_congr ?_ rfl rfl
    rw [Option.some.injEq, eq_comm]
    exact and_congr_right fun here => here ▸ Iff.rfl

theorem unlink_relinked (held : tree.parentOf (some child) = some parent) (position : Nat) :
    Relinked tree (tree.unlink parent position (some child)) child none where
  size := (size_modify ..).trans (size_modify ..)
  family? := unlink_family? tree parent position (some child)
  span? id := by
    rw [unlink, release_span?]
    exact span?_modify (Node.clearSlot_span · position)
  parentOf id := by
    rw [unlink_parentOf]
    by_cases same : id = child
    · simp [same, held]
    · simp [same, Ne.symm same]
  slots id distinct _ := by
    rw [held] at distinct
    exact unlink_slots_ne (fun same => distinct (congrArg some same.symm)) _

/-- Where a slot that counts is emptied, its child counts once less. -/
theorem count_unlink {removed : Handle} (fixed : tree.family? (some fresh) = none)
    (found : tree.get? (some parent) = some node) (there : node.slots[position]? = some removed)
    (other : NodeId) (counts : parent = fresh → removed = some other → position < filled) :
    ((tree.unlink parent position removed).filledSlots fresh filled parent).count (some other) +
        (if removed = some other then 1 else 0) =
      (tree.filledSlots fresh filled parent).count (some other) := by
  unfold filledSlots
  rw [unlink_slots_self found, slots_of_get? found]
  split
  · next same =>
    rw [← same, family?_of_get? found] at fixed
    rw [Node.clearSlot_of_fixed fixed]
    by_cases early : position < filled
    · have kept : (node.slots.take filled)[position]? = some removed := by
        rw [List.getElem?_take_of_lt early, there]
      rw [List.take_set]
      simpa using count_set_add kept none (some other)
    · rw [List.take_set_of_le (Nat.le_of_not_lt early), if_neg (early ∘ counts same),
        Nat.add_zero]
  · exact Node.count_clearSlot there other

/-- A child that is taken out of its slot belongs to nobody. -/
theorem OwnedUpTo.unlink (owned : tree.OwnedUpTo fresh filled)
    (held : tree.parentOf (some child) = some parent)
    (found : tree.get? (some parent) = some node)
    (there : node.slots[position]? = some (some child))
    (counts : parent = fresh → position < filled) :
    (tree.unlink parent position (some child)).OwnedUpTo fresh filled := by
  have relinked := unlink_relinked held position
  refine ⟨fun other id => held_of_counts parent (child = id) False (owned.held · id) ?_ ?_ nofun
    (fun _ => not_false) ?_ other, ?_, ?_⟩
  · intro other distinct
    unfold filledSlots
    rw [unlink_slots_ne distinct]
  · simpa using count_unlink owned.fixed found there id fun same _ => counts same
  · rw [relinked.parentOf]
    simp only [eq_comm, if_false]
  · intro list isList
    rw [relinked.family?] at isList
    have dense := owned.dense list isList
    by_cases same : list = parent
    · subst same
      rw [family?_of_get? found] at isList
      rw [slots_of_get? found] at dense
      rw [unlink_slots_self found]
      exact Node.none_not_mem_clearSlot isList dense
    · rw [unlink_slots_ne same]
      exact dense
  · rw [relinked.family?]
    exact owned.fixed

end Unlink

theorem get?_of_mem_slots {handle : Handle} (member : handle ∈ tree.slots (some parent)) :
    ∃ node, tree.get? (some parent) = some node ∧ handle ∈ node.slots := by
  unfold slots at member
  cases found : tree.get? (some parent) with
  | none => simp [found] at member
  | some node => exact ⟨node, rfl, by simpa [found] using member⟩

/-- Removing a child empties the first slot that holds it; the span of its parent is brought
up to date afterwards. -/
theorem removeChild_eq (member : some child ∈ tree.slots (some parent)) :
    ∃ node position, tree.get? (some parent) = some node ∧
      node.slots[position]? = some (some child) ∧
      (∀ filled, some child ∈ node.slots.take filled → position < filled) ∧
      tree.removeChild parent (some child) =
        (tree.unlink parent position (some child)).refreshIfList parent node := by
  obtain ⟨node, found, held⟩ := get?_of_mem_slots member
  obtain ⟨position, first, there, early⟩ := Node.slotOf?_eq_some held
  refine ⟨node, position, found, there, early, ?_⟩
  unfold Tree.removeChild
  simp only [found, first]

theorem removeChild_of_not_mem (missing : some child ∉ tree.slots (some parent)) :
    tree.removeChild parent (some child) = tree := by
  unfold Tree.removeChild
  split
  · rfl
  · next node found =>
    rw [slots_of_get? found] at missing
    have absent : node.slotOf? (some child) = none := List.idxOf?_eq_none_iff.mpr missing
    simp only [absent]

/-- Where slots and parents agree, this is a slot that counts. -/
theorem OwnedUpTo.removeChild (owned : tree.OwnedUpTo fresh filled)
    (held : tree.parentOf (some child) = some parent) :
    ∃ node position, tree.get? (some parent) = some node ∧
      node.slots[position]? = some (some child) ∧ (parent = fresh → position < filled) ∧
      tree.removeChild parent (some child) =
        (tree.unlink parent position (some child)).refreshIfList parent node := by
  have member := owned.mem_filledSlots held
  obtain ⟨node, position, found, there, early, same⟩ := removeChild_eq (filledSlots_subset member)
  refine ⟨node, position, found, there, fun fills => ?_, same⟩
  rw [filledSlots, if_pos fills, slots_of_get? found] at member
  exact early filled member

theorem OwnedUpTo.respanned (owned : before.OwnedUpTo fresh filled)
    (respanned : Respanned before after) : after.OwnedUpTo fresh filled where
  held parent child := by
    rw [respanned.parentOf, ← owned.held, filledSlots, filledSlots, respanned.slots]
  dense list isList := by
    rw [respanned.family?] at isList
    rw [respanned.slots]
    exact owned.dense list isList
  fixed := by
    rw [respanned.family?]
    exact owned.fixed

theorem Owned.respanned (owned : before.Owned) (respanned : Respanned before after) :
    after.Owned where
  held parent child := by rw [respanned.parentOf, ← owned.held, respanned.slots]
  dense list isList := by
    rw [respanned.family?] at isList
    rw [respanned.slots]
    exact owned.dense list isList

/-- A child that is detached belongs to nobody. Only the span of its old parent, if that
is a list, has changed besides. -/
theorem OwnedUpTo.detach (owned : tree.OwnedUpTo fresh filled) (child : NodeId) :
    ∃ free, Relinked tree free child none ∧ free.OwnedUpTo fresh filled ∧
      (∀ position ≥ filled,
        (free.slots (some fresh))[position]? = (tree.slots (some fresh))[position]?) ∧
      (tree.parentOf (some child) = none ∧ tree.detach (some child) = free ∨
        ∃ previous node, tree.parentOf (some child) = some previous ∧
          tree.get? (some previous) = some node ∧
          tree.detach (some child) = free.refreshIfList previous node) := by
  unfold Tree.detach
  cases held : tree.parentOf (some child) with
  | none => exact ⟨tree, .refl held, owned, fun _ _ => rfl, .inl ⟨rfl, rfl⟩⟩
  | some previous =>
    obtain ⟨node, position, found, there, counts, same⟩ := owned.removeChild held
    refine ⟨_, unlink_relinked held position, owned.unlink held found there counts, ?_,
      .inr ⟨previous, node, rfl, found, same⟩⟩
    intro later pending
    by_cases fills : previous = fresh
    · subst fills
      have fixed : node.form.family? = none := by
        rw [← family?_of_get? found]
        exact owned.fixed
      have distinct : position ≠ later := Nat.ne_of_lt (Nat.lt_of_lt_of_le (counts rfl) pending)
      rw [unlink_slots_self found, slots_of_get? found, Node.clearSlot_of_fixed fixed,
        List.getElem?_set_ne distinct]
    · rw [unlink_slots_ne (Ne.symm fills)]

theorem OwnedUpTo.detach_respanned (owned : tree.OwnedUpTo fresh filled) (child : NodeId) :
    ∃ free, Relinked tree free child none ∧ free.OwnedUpTo fresh filled ∧
      (∀ position ≥ filled,
        (free.slots (some fresh))[position]? = (tree.slots (some fresh))[position]?) ∧
      Respanned free (tree.detach (some child)) := by
  obtain ⟨free, relinked, still, pending, ⟨-, same⟩ | ⟨previous, node, -, -, same⟩⟩ :=
    owned.detach child
  · exact ⟨free, relinked, still, pending, same ▸ .refl free⟩
  · exact ⟨free, relinked, still, pending, same ▸ .refreshIfList free previous node⟩

theorem OwnedUpTo.whole (owned : tree.OwnedUpTo fresh filled) (outside : tree.size ≤ fresh) :
    tree.Owned := by
  refine owned.owned ?_
  rw [slots_outside outside]
  exact Nat.zero_le _

theorem Owned.detach (owned : tree.Owned) (child : NodeId) :
    ∃ free, Relinked tree free child none ∧ free.Owned ∧
      Respanned free (tree.detach (some child)) := by
  obtain ⟨free, relinked, still, -, respanned⟩ := owned.upTo.detach_respanned child
  exact ⟨free, relinked, still.whole (Nat.le_of_eq relinked.size), respanned⟩

section Place

variable {old : Handle} {fill : List Handle → List Handle}

/-- Put a child that belongs to nobody into a slot of `parent`, where it may take the
place of another. -/
def place (tree : Tree) (parent child : NodeId) (old : Handle)
    (fill : List Handle → List Handle) : Tree :=
  ((tree.modify (some child) (·.withParent (some parent))).modify (some parent)
    fun node => node.withSlots (fill node.slots)).release parent old

/-- The node can have the slots that are left when this is done to its own. -/
def Takes (tree : Tree) (parent : NodeId) (fill : List Handle → List Handle) : Prop :=
  ∀ node, tree.get? (some parent) = some node → node.form.Admits (fill node.slots)

theorem takes_set (tree : Tree) (parent : NodeId) (position : Nat) (handle : Handle) :
    tree.Takes parent (·.set position handle) :=
  fun node _ => node.admits_set position handle

/-- The slots of a list come and go. -/
theorem takes_of_isList (isList : (tree.family? (some parent)).isSome)
    (fill : List Handle → List Handle) : tree.Takes parent fill := by
  intro node found
  rw [family?_of_get? found] at isList
  exact Form.admits_of_isList isList _

theorem place_slots_self (present : parent < tree.size) (takes : tree.Takes parent fill) :
    (tree.place parent child old fill).slots (some parent) = fill (tree.slots (some parent)) := by
  obtain ⟨node, found⟩ : ∃ node, tree.get? (some parent) = some node :=
    ⟨_, Array.getElem?_eq_getElem present⟩
  have stands : (tree.modify (some child) (·.withParent (some parent))).get? (some parent) =
      some (if parent = child then node.withParent (some parent) else node) := by
    rw [get?_modify, found]
    split <;> rfl
  rw [place, release_slots, slots_modify_self stands, slots_of_get? found]
  split
  · exact Node.withSlots_slots (takes node found)
  · exact Node.withSlots_slots (takes node found)

theorem place_slots_ne {other : NodeId} (distinct : other ≠ parent) :
    (tree.place parent child old fill).slots (some other) = tree.slots (some other) := by
  rw [place, release_slots, slots_modify_ne distinct]
  exact slots_modify fun _ => rfl

theorem place_parentOf {id : NodeId} (present : id = child → id < tree.size)
    (replaces : old = some id → id ≠ child ∧ tree.parentOf (some id) = some parent) :
    (tree.place parent child old fill).parentOf (some id) =
      if old = some id then none else if id = child then some parent
      else tree.parentOf (some id) := by
  let adopted := tree.modify (some child) (·.withParent (some parent))
  let filled := adopted.modify (some parent) fun node => node.withSlots (fill node.slots)
  have kept : filled.parentOf (some id) = adopted.parentOf (some id) :=
    parentOf_modify fun node => node.withSlots_parent _
  have given : filled.parentOf (some id) =
      if id = child then some parent else tree.parentOf (some id) := by
    rw [kept]
    by_cases same : id = child
    · exact parentOf_withParent (same ▸ present same) _ id
    · rw [if_neg same, parentOf, get?_modify_ne same]
      rfl
  change (filled.release parent old).parentOf (some id) = _
  cases old with
  | none => exact given.trans (if_neg (Option.some_ne_none id).symm).symm
  | some gone =>
    rw [parentOf_release]
    by_cases same : gone = id
    · subst same
      obtain ⟨other, held⟩ := replaces rfl
      simp [given, other, held]
    · rw [if_neg fun here => same here.1.symm, if_neg (mt Option.some.inj same), given]

/-- One child has been given a parent and another may have lost its own. Only slots of
that parent have changed, and no span. -/
structure Placed (before after : Tree) (parent child : NodeId) (old : Handle) : Prop where
  size : after.size = before.size
  family? : ∀ id, after.family? id = before.family? id
  span? : ∀ id, after.span? id = before.span? id
  parentOf : ∀ id, after.parentOf (some id) =
    if old = some id then none else if id = child then some parent else before.parentOf (some id)
  slots : ∀ id ≠ parent, after.slots (some id) = before.slots (some id)

theorem place_placed (fill : List Handle → List Handle) (present : child < tree.size)
    (replaces : ∀ id, old = some id → id ≠ child ∧ tree.parentOf (some id) = some parent) :
    Placed tree (tree.place parent child old fill) parent child old := by
  let adopted := tree.modify (some child) (·.withParent (some parent))
  let filled := adopted.modify (some parent) fun node => node.withSlots (fill node.slots)
  refine ⟨?_, fun id => ?_, fun id => ?_, fun id => ?_, fun _ => place_slots_ne⟩
  · exact (size_modify ..).trans ((size_modify ..).trans (size_modify ..))
  · have first : adopted.family? id = tree.family? id := family?_modify fun _ => rfl
    have second : filled.family? id = adopted.family? id :=
      family?_modify fun node => congrArg Form.family? (node.withSlots_form _)
    rw [place, release_family?, second, first]
  · have first : adopted.span? id = tree.span? id := span?_modify fun _ => rfl
    have second : filled.span? id = adopted.span? id :=
      span?_modify fun node => node.withSlots_span _
    rw [place, release_span?, second, first]
  · exact place_parentOf (fun same => same ▸ present) (replaces id)

theorem Owned.place (owned : tree.Owned) (free : tree.parentOf (some child) = none)
    (present : child < tree.size) (room : parent < tree.size) (takes : tree.Takes parent fill)
    (replaces : ∀ id, old = some id → id ≠ child ∧ tree.parentOf (some id) = some parent)
    (counts : ∀ id, (fill (tree.slots (some parent))).count (some id) +
      (if old = some id then 1 else 0) =
      (tree.slots (some parent)).count (some id) + (if child = id then 1 else 0))
    (dense : (tree.family? (some parent)).isSome → none ∉ fill (tree.slots (some parent))) :
    (tree.place parent child old fill).Owned := by
  have placed : Placed tree (tree.place parent child old fill) parent child old :=
    place_placed fill present replaces
  refine ⟨fun other id => held_of_counts parent (old = some id) (child = id)
    (owned.held · id) placed.slots ?_ ?_ ?_ ?_ other, ?_⟩
  · rw [place_slots_self room takes]
    exact counts id
  · rintro rfl
    exact free
  · exact fun gone => (replaces id gone).1.symm
  · rw [placed.parentOf]
    simp only [eq_comm]
  · intro list isList
    rw [placed.family?] at isList
    by_cases same : list = parent
    · subst same
      rw [place_slots_self room takes]
      exact dense isList
    · rw [placed.slots list same]
      exact owned.dense list isList

end Place

end Tree

end ScriptSyntax
