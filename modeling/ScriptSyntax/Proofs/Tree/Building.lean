import ScriptSyntax.Proofs.Tree.Moves

/-! Making nodes. A new node takes its children one slot after another; nothing is above
it, and only it is above what was not there before. -/
namespace ScriptSyntax.Tree

variable {before tree after : Tree} {fresh parent child : NodeId} {filled : Nat}
  {children : List Handle} {node : Node}

theorem parentOf_push (free : node.parent = none) (tree : Tree) (id : NodeId) :
    (tree.push node).parentOf (some id) = tree.parentOf (some id) := by
  rw [parentOf, get?_push]
  split
  · next same =>
    rw [same, parentOf, get?_eq_none (Nat.le_refl _)]
    exact free
  · rfl

theorem slots_push (tree : Tree) (node : Node) (id : NodeId) :
    (tree.push node).slots (some id) =
      if id = tree.size then node.slots else tree.slots (some id) := by
  rw [slots, get?_push]
  split <;> rfl

theorem family?_push (tree : Tree) (node : Node) (id : NodeId) :
    (tree.push node).family? (some id) =
      if id = tree.size then node.form.family? else tree.family? (some id) := by
  rw [family?, get?_push]
  split <;> rfl

theorem form?_push (tree : Tree) (node : Node) (id : NodeId) :
    (tree.push node).form? (some id) =
      if id = tree.size then some node.form else tree.form? (some id) := by
  rw [form?, get?_push]
  split <;> rfl

theorem parentOf_outside (outside : tree.size ≤ child) : tree.parentOf (some child) = none := by
  rw [parentOf, get?_eq_none outside]
  rfl

theorem Owned.parent_lt (owned : tree.Owned) (held : tree.parentOf (some child) = some parent) :
    parent < tree.size :=
  owned.upTo.parent_lt held

theorem Owned.not_above_outside (owned : tree.Owned) (outside : tree.size ≤ parent) :
    tree.parentOf (some child) ≠ some parent := fun held =>
  absurd (owned.parent_lt held) (Nat.not_lt.mpr outside)

/-- A new list without elements. -/
theorem Owned.push_empty (owned : tree.Owned) (free : node.parent = none)
    (empty : node.slots = []) : (tree.push node).Owned where
  held parent child := by
    rw [parentOf_push free, slots_push]
    split
    · next same => simp [same, empty, owned.not_above_outside (Nat.le_refl _)]
    · exact owned.held parent child
  dense list isList := by
    rw [slots_push]
    rw [family?_push] at isList
    split at isList
    · next same => simp [same, empty]
    · next old =>
      rw [if_neg old]
      exact owned.dense list isList

/-- A new node whose slots are still to be filled. -/
theorem Owned.push (owned : tree.Owned) (free : node.parent = none)
    (fixed : node.form.family? = none) : (tree.push node).OwnedUpTo tree.size 0 where
  held parent child := by
    rw [parentOf_push free, filledSlots, slots_push]
    split
    · next same => simp [same, owned.not_above_outside (Nat.le_refl _)]
    · exact owned.held parent child
  dense list isList := by
    rw [family?_push] at isList
    rw [slots_push]
    split at isList
    · rw [fixed] at isList
      cases isList
    · next old =>
      rw [if_neg old]
      exact owned.dense list isList
  fixed := by
    rw [family?_push, if_pos rfl]
    exact fixed

theorem slot_eq (tree : Tree) (parent : NodeId) (position : Nat) :
    tree.slot (some parent) position = (tree.slots (some parent))[position]?.join := by
  rw [slot, slots]
  cases tree.get? (some parent) <;> rfl

/-- An empty slot counts as filled. -/
theorem OwnedUpTo.skip (owned : tree.OwnedUpTo fresh filled)
    (empty : (tree.slots (some fresh))[filled]? = some none) :
    tree.OwnedUpTo fresh (filled + 1) where
  held parent child := by
    rw [← owned.held, filledSlots, filledSlots]
    split
    · next same => simp [same, List.take_add_one, empty]
    · rfl
  dense := owned.dense
  fixed := owned.fixed

/-- A slot is filled when the child in it, which belongs to nobody, becomes its own. -/
theorem OwnedUpTo.attach (owned : tree.OwnedUpTo fresh filled)
    (free : tree.parentOf (some child) = none) (present : child < tree.size)
    (next : (tree.slots (some fresh))[filled]? = some (some child)) :
    (tree.modify (some child) (·.withParent (some fresh))).OwnedUpTo fresh (filled + 1) := by
  refine ⟨fun other id => held_of_counts fresh False (child = id) (owned.held · id) ?_ ?_ ?_
    nofun ?_ other, ?_, ?_⟩
  · intro other distinct
    rw [filledSlots, filledSlots, if_neg distinct, if_neg distinct, slots_withParent]
  · rw [filledSlots, filledSlots, if_pos rfl, if_pos rfl, slots_withParent, List.take_add_one, next,
      Option.toList_some, List.count_append]
    simp [List.count_singleton]
  · rintro rfl
    exact free
  · rw [parentOf_withParent present]
    simp only [eq_comm, if_false]
  · intro list isList
    rw [family?_withParent] at isList
    rw [slots_withParent]
    exact owned.dense list isList
  · rw [family?_withParent]
    exact owned.fixed

/-- A tree in which the first slots of the node after those of `before` are filled. -/
structure Building (before tree : Tree) (children : List Handle) (filled : Nat) : Prop where
  owned : tree.OwnedUpTo before.size filled
  size : tree.size = before.size + 1
  free : tree.parentOf (some before.size) = none
  pending : ∀ position ≥ filled,
    (tree.slots (some before.size))[position]? = children[position]?
  link : ∀ id above, tree.parentOf (some id) = some above →
    before.parentOf (some id) = some above ∨ above = before.size

theorem Building.skip (building : Building before tree children filled)
    (empty : children[filled]? = some none) : Building before tree children (filled + 1) where
  owned := building.owned.skip ((building.pending filled (Nat.le_refl _)).trans empty)
  size := building.size
  free := building.free
  pending position later := building.pending position (Nat.le_of_succ_le later)
  link := building.link

theorem Building.attach (building : Building before tree children filled)
    (next : children[filled]? = some (some child)) (present : child < before.size) :
    Building before
      ((tree.adopt before.size (some child)).widenOver (some before.size) (some child))
      children (filled + 1) := by
  obtain ⟨free, relinked, owned, pending, respanned⟩ := building.owned.detach_respanned child
  have detached := owned.respanned respanned
  have parents (id : NodeId) : (tree.detach (some child)).parentOf (some id) =
      if id = child then none else tree.parentOf (some id) := by
    rw [respanned.parentOf, relinked.parentOf]
  have size : (tree.detach (some child)).size = before.size + 1 :=
    respanned.size.trans (relinked.size.trans building.size)
  have inside : child < (tree.detach (some child)).size :=
    Nat.lt_of_lt_of_eq (Nat.lt_succ_of_lt present) size.symm
  have slots (position : Nat) (later : position ≥ filled) :
      ((tree.detach (some child)).slots (some before.size))[position]? = children[position]? := by
    rw [respanned.slots, pending position later, building.pending position later]
  have widened := Respanned.widenOver (tree.adopt before.size (some child)) (some before.size)
    (some child)
  have adopted (id : NodeId) : (tree.adopt before.size (some child)).parentOf (some id) =
      if id = child then some before.size else tree.parentOf (some id) := by
    rw [Tree.adopt, parentOf_withParent inside, parents]
    split <;> rfl
  refine ⟨OwnedUpTo.respanned ?_ widened, ?_, ?_, ?_, ?_⟩
  · exact detached.attach (by rw [parents, if_pos rfl]) inside
      ((slots filled (Nat.le_refl _)).trans next)
  · exact widened.size.trans ((size_modify ..).trans size)
  · rw [widened.parentOf, adopted, if_neg (Nat.ne_of_gt present), building.free]
  · intro position later
    rw [widened.slots, adopt_slots]
    exact slots position (Nat.le_of_succ_le later)
  · intro id above linked
    rw [widened.parentOf, adopted] at linked
    split at linked
    · exact .inr (Option.some.inj linked).symm
    · exact building.link id above linked

/-- The new node, before any slot is filled. -/
theorem Owned.building (owned : before.Owned) {form : Form} (fixed : form.family? = none)
    (children : List Handle) (span : Span) (admits : form.Admits children) :
    Building before (before.push { form, slots := children, span, admits }) children 0 where
  owned := owned.push rfl fixed
  size := size_push ..
  free := by
    rw [parentOf_push rfl]
    exact parentOf_outside (Nat.le_refl _)
  pending position _ := by rw [slots_push, if_pos rfl]
  link id above linked := by
    rw [parentOf_push rfl] at linked
    exact .inl linked

/-- Making a node keeps whatever is kept by passing over an empty slot and by adopting the
child in a slot and widening the node over it. -/
theorem Owned.add_induct {motive : Nat → Tree → Prop} (owned : before.Owned) {form : Form}
    (fixed : form.family? = none) (children : List Handle) (span : Span)
    (admits : form.Admits children)
    (present : ∀ child, some child ∈ children → child < before.size)
    (begins : motive 0 (before.push { form, slots := children, span, admits }))
    (skips : ∀ filled tree, Building before tree children filled → motive filled tree →
      children[filled]? = some none → motive (filled + 1) tree)
    (attaches : ∀ filled tree child, Building before tree children filled → motive filled tree →
      children[filled]? = some (some child) → child < before.size → motive (filled + 1)
        ((tree.adopt before.size (some child)).widenOver (some before.size) (some child))) :
    Building before (before.add form children span admits).tree children children.length ∧
      motive children.length (before.add form children span admits).tree := by
  suffices all : ∀ filled ≤ children.length,
      Building before ((List.range filled).foldl (·.attachSlot before.size ·)
        (before.push { form, slots := children, span, admits })) children filled ∧
      motive filled ((List.range filled).foldl (·.attachSlot before.size ·)
        (before.push { form, slots := children, span, admits })) from
          all children.length (Nat.le_refl _)
  intro filled within
  induction filled with
  | zero => exact ⟨owned.building fixed children span admits, begins⟩
  | succ filled ih =>
    obtain ⟨building, kept⟩ := ih (Nat.le_of_succ_le within)
    rw [List.range_succ, List.foldl_append, List.foldl_cons, List.foldl_nil]
    generalize (List.range filled).foldl (·.attachSlot before.size ·)
      (before.push { form, slots := children, span, admits }) = tree at building kept
    have next : children[filled]? = some children[filled] := List.getElem?_eq_getElem within
    have slot : tree.slot (some before.size) filled = children[filled] := by
      rw [slot_eq, building.pending filled (Nat.le_refl _), next]
      rfl
    unfold attachSlot
    rw [slot]
    cases named : children[filled] with
    | none =>
      rw [named] at next
      exact ⟨building.skip next, skips filled tree building kept next⟩
    | some child =>
      rw [named] at next
      have inside := present child (List.mem_of_getElem? next)
      exact ⟨building.attach next inside, attaches filled tree child building kept next inside⟩

theorem Building.complete (building : Building before tree children children.length) :
    tree.Owned := by
  refine building.owned.owned (List.getElem?_eq_none_iff.mp ?_)
  rw [building.pending children.length (Nat.le_refl _)]
  exact List.getElem?_eq_none (Nat.le_refl _)

theorem Owned.add (owned : before.Owned) {form : Form} (fixed : form.family? = none)
    {children : List Handle} (present : ∀ child, some child ∈ children → child < before.size)
    (span : Span) (admits : form.Admits children) :
    Building before (before.add form children span admits).tree children children.length :=
  (owned.add_induct (motive := fun _ _ => True) fixed children span admits present trivial
    (fun _ _ _ _ _ => trivial) (fun _ _ _ _ _ _ _ => trivial)).1

theorem Owned.addList (owned : before.Owned) (family : ListFamily) (span : Span)
    {elements : List Handle} (present : ∀ child, some child ∈ elements → child < before.size) :
    (before.push (.emptyList family span)).Owned ∧
      Moves before.size (before.push (.emptyList family span))
        (before.addList family span elements).tree := by
  have pushed : (before.push (.emptyList family span)).Owned :=
    owned.push_empty rfl rfl
  refine ⟨pushed, pushed.appendAll ?_⟩
  intro child member
  rw [size_push]
  exact Nat.lt_succ_of_lt (present child member)

end ScriptSyntax.Tree
