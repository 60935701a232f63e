import ScriptSyntax.Proofs.Tree.Refusal

/-! Calls with any handles at all, also of nodes that are not there. A slot keeps what it is
given, so it may hold a node before this has been made. For each node by itself: as long as no
call has given it away too early, it is in one slot of its parent and in no other. -/
namespace ScriptSyntax

theorem count_insertIdx_none (slots : List Handle) (position : Nat) (child : NodeId) :
    (slots.insertIdx position none).count (some child) = slots.count (some child) := by
  by_cases inside : position ≤ slots.length
  · simpa using count_insertIdx inside none (some child)
  · rw [List.insertIdx_of_length_lt (Nat.lt_of_not_le inside)]

theorem Node.count_insertSlot_none (node : Node) (position : Nat) (child : NodeId) :
    (node.insertSlot position none).slots.count (some child) = node.slots.count (some child) := by
  unfold insertSlot withSlots
  split
  · exact count_insertIdx_none ..
  · rfl

namespace Tree

variable {tree before after : Tree} {fresh parent child other list : NodeId}
  {filled position : Nat} {children : List Handle} {handle : Handle}

/-- The node is in one slot of its parent and in no other slot, and it is not its own
parent. Of other nodes nothing is said. -/
structure InPlace (tree : Tree) (child : NodeId) : Prop where
  held : ∀ parent, (tree.slots (some parent)).count (some child) =
    if tree.parentOf (some child) = some parent then 1 else 0
  apart : tree.parentOf (some child) ≠ some child

/-- The same while a node is made, as far as its slots are filled. Those that are still to be
filled hold the node where it is among the children given. -/
structure Filling (tree : Tree) (fresh : NodeId) (children : List Handle) (filled : Nat)
    (child : NodeId) : Prop where
  held : ∀ parent, (tree.filledSlots fresh filled parent).count (some child) =
    if tree.parentOf (some child) = some parent then 1 else 0
  apart : tree.parentOf (some child) ≠ some child
  fixed : tree.family? (some fresh) = none
  pending : ∀ position ≥ filled,
    (tree.slots (some fresh))[position]? = some (some child) ↔
      children[position]? = some (some child)

theorem size_removeChild (tree : Tree) (parent child : NodeId) :
    (tree.removeChild parent (some child)).size = tree.size := by
  by_cases member : some child ∈ tree.slots (some parent)
  · obtain ⟨node, position, -, -, -, same⟩ := removeChild_eq member
    rw [same, (Respanned.refreshIfList _ parent node).size]
    exact (size_modify ..).trans (size_modify ..)
  · rw [removeChild_of_not_mem member]

theorem size_detach (tree : Tree) (child : NodeId) :
    (tree.detach (some child)).size = tree.size := by
  unfold Tree.detach
  split
  · rfl
  · exact size_removeChild ..

theorem size_place (tree : Tree) (parent child : NodeId) (old : Handle)
    (fill : List Handle → List Handle) : (tree.place parent child old fill).size = tree.size :=
  (size_modify ..).trans ((size_modify ..).trans (size_modify ..))

namespace Filling

theorem respanned (filling : before.Filling fresh children filled child)
    (respanned : Respanned before after) : after.Filling fresh children filled child where
  held parent := by
    rw [respanned.parentOf, ← filling.held, filledSlots, filledSlots, respanned.slots]
  apart := by
    rw [respanned.parentOf]
    exact filling.apart
  fixed := by
    rw [respanned.family?]
    exact filling.fixed
  pending position later := by
    rw [respanned.slots]
    exact filling.pending position later

theorem mem_iff (filling : tree.Filling fresh children filled child) :
    some child ∈ tree.filledSlots fresh filled parent ↔
      tree.parentOf (some child) = some parent := by
  rw [← List.count_pos_iff, filling.held]
  split
  · next held => simp [held]
  · next free => simp [free]

/-- Whatever is taken out of a slot, if this is the node it is in no slot afterwards. -/
theorem unlink {node : Node} {removed : Handle}
    (filling : tree.Filling fresh children filled child)
    (found : tree.get? (some parent) = some node)
    (there : node.slots[position]? = some removed)
    (early : parent = fresh → removed = some child → position < filled) :
    (tree.unlink parent position removed).Filling fresh children filled child ∧
      (removed = some child →
        (tree.unlink parent position removed).parentOf (some child) = none) := by
  have own (same : removed = some child) : tree.parentOf (some child) = some parent := by
    refine filling.mem_iff.mp ?_
    unfold filledSlots
    rw [slots_of_get? found]
    rw [same] at there
    split
    · next here =>
      refine List.mem_of_getElem? (i := position) ?_
      rw [List.getElem?_take_of_lt (early here same), there]
    · exact List.mem_of_getElem? there
  have moved : (tree.unlink parent position removed).parentOf (some child) =
      if removed = some child then none else tree.parentOf (some child) := by
    rw [unlink_parentOf]
    by_cases same : removed = some child
    · simp [same, own same]
    · simp [same]
  refine ⟨⟨held_of_counts parent (removed = some child) False filling.held ?_ ?_ nofun
    (fun _ => not_false) ?_, ?_, ?_, ?_⟩, fun same => by rw [moved, if_pos same]⟩
  · intro other distinct
    unfold filledSlots
    rw [unlink_slots_ne distinct]
  · simpa using count_unlink filling.fixed found there child early
  · simpa using moved
  · rw [moved]
    split
    · exact nofun
    · exact filling.apart
  · rw [unlink_family?]
    exact filling.fixed
  · intro later pending
    rw [← filling.pending later pending]
    by_cases fills : parent = fresh
    · subst fills
      have fixed := filling.fixed
      rw [family?_of_get? found] at fixed
      rw [unlink_slots_self found, slots_of_get? found, Node.clearSlot_of_fixed fixed,
        List.getElem?_set]
      split
      · next here =>
        subst here
        have other : removed ≠ some child := fun same => Nat.not_lt.mpr pending (early rfl same)
        rw [there]
        split <;> simp [other]
      · rfl
    · rw [unlink_slots_ne (Ne.symm fills)]

theorem removeChild {removed : NodeId} (filling : tree.Filling fresh children filled child)
    (own : removed = child → tree.parentOf (some child) = some parent) :
    (tree.removeChild parent (some removed)).Filling fresh children filled child ∧
      (removed = child → (tree.removeChild parent (some removed)).parentOf (some child) = none) := by
  by_cases member : some removed ∈ tree.slots (some parent)
  · obtain ⟨node, position, found, there, first, same⟩ := removeChild_eq member
    obtain ⟨still, free⟩ := filling.unlink found there fun fills same => by
      have within := filling.mem_iff.mpr (own (Option.some.inj same))
      rw [filledSlots, if_pos fills, slots_of_get? found, ← same] at within
      exact first filled within
    have respanned := Respanned.refreshIfList (tree.unlink parent position (some removed))
      parent node
    rw [same, respanned.parentOf]
    exact ⟨still.respanned respanned, fun same => free (congrArg some same)⟩
  · rw [removeChild_of_not_mem member]
    refine ⟨filling, fun same => absurd ?_ member⟩
    rw [same]
    exact filledSlots_subset (filling.mem_iff.mpr (own same))

theorem detach (filling : tree.Filling fresh children filled child) (other : NodeId) :
    (tree.detach (some other)).Filling fresh children filled child ∧
      (other = child → (tree.detach (some other)).parentOf (some child) = none) := by
  unfold Tree.detach
  split
  · next free => exact ⟨filling, fun same => same ▸ free⟩
  · next previous held => exact filling.removeChild fun same => same ▸ held

/-- A slot with nothing or with another child counts as filled. -/
theorem skip (filling : tree.Filling fresh children filled child)
    (other : (tree.slots (some fresh))[filled]? ≠ some (some child)) :
    tree.Filling fresh children (filled + 1) child where
  held parent := by
    rw [← filling.held, filledSlots, filledSlots]
    split
    · next same =>
      subst same
      have none : (tree.slots (some parent))[filled]?.toList.count (some child) = 0 :=
        List.count_eq_zero.mpr fun member => other (Option.mem_toList.mp member)
      rw [List.take_add_one, List.count_append, none, Nat.add_zero]
    · rfl
  apart := filling.apart
  fixed := filling.fixed
  pending position later := filling.pending position (Nat.le_of_succ_le later)

/-- Another node gets a parent. -/
theorem withParent (filling : tree.Filling fresh children filled child) (distinct : other ≠ child)
    (parent : Handle) :
    (tree.modify (some other) (·.withParent parent)).Filling fresh children filled child := by
  have moved : (tree.modify (some other) (·.withParent parent)).parentOf (some child) =
      tree.parentOf (some child) := by
    rw [parentOf, get?_modify_ne distinct.symm]
    rfl
  refine ⟨fun parent => ?_, ?_, ?_, fun position later => ?_⟩
  · rw [moved, ← filling.held, filledSlots, filledSlots, slots_withParent]
  · rw [moved]
    exact filling.apart
  · rw [family?_withParent]
    exact filling.fixed
  · rw [slots_withParent]
    exact filling.pending position later

/-- The node becomes a child of the one that is made. -/
theorem attach (filling : tree.Filling fresh children filled child)
    (free : tree.parentOf (some child) = none) (present : child < tree.size)
    (distinct : child ≠ fresh) (next : (tree.slots (some fresh))[filled]? = some (some child)) :
    (tree.modify (some child) (·.withParent (some fresh))).Filling fresh children (filled + 1)
      child := by
  have moved : (tree.modify (some child) (·.withParent (some fresh))).parentOf (some child) =
      some fresh := by
    rw [parentOf_withParent present, if_pos rfl]
  refine ⟨held_of_counts fresh False True filling.held ?_ ?_ (fun _ => free) nofun ?_, ?_, ?_,
    fun position later => ?_⟩
  · intro other apart
    rw [filledSlots, filledSlots, if_neg apart, if_neg apart, slots_withParent]
  · rw [filledSlots, filledSlots, if_pos rfl, if_pos rfl, slots_withParent, List.take_add_one, next]
    simp
  · simpa using moved
  · rw [moved]
    exact fun same => distinct (Option.some.inj same).symm
  · rw [family?_withParent]
    exact filling.fixed
  · rw [slots_withParent]
    exact filling.pending position (Nat.le_of_succ_le later)

/-- Filling the next slot, whatever is in it. -/
theorem attachSlot (filling : tree.Filling fresh children filled child)
    (present : some child ∈ children → child < fresh) (room : fresh < tree.size) :
    (tree.attachSlot fresh filled).Filling fresh children (filled + 1) child ∧
      (tree.attachSlot fresh filled).size = tree.size := by
  have slot := slot_eq tree fresh filled
  unfold Tree.attachSlot
  cases held : tree.slot (some fresh) filled with
  | none =>
    refine ⟨filling.skip fun same => ?_, rfl⟩
    rw [held, same] at slot
    cases slot
  | some other =>
    dsimp only
    obtain ⟨still, free⟩ := filling.detach other
    have adopted : (tree.adopt fresh (some other)).size = tree.size :=
      (size_modify ..).trans (size_detach ..)
    have widened := Respanned.widenOver (tree.adopt fresh (some other)) (some fresh) (some other)
    refine ⟨respanned ?_ widened, widened.size.trans adopted⟩
    rw [held, eq_comm, Option.join_eq_some_iff] at slot
    by_cases same : other = child
    · subst same
      have named := (filling.pending filled (Nat.le_refl _)).mp slot
      have low := present (List.mem_of_getElem? named)
      refine still.attach (free rfl) ?_ (Nat.ne_of_lt low)
        ((still.pending filled (Nat.le_refl _)).mpr named)
      rw [size_detach]
      exact Nat.lt_trans low room
    · refine (still.withParent same _).skip ?_
      rw [slots_withParent, Ne, still.pending filled (Nat.le_refl _),
        ← filling.pending filled (Nat.le_refl _), slot]
      exact fun again => same (Option.some.inj (Option.some.inj again))

end Filling

namespace InPlace

theorem filling (inPlace : tree.InPlace child) : tree.Filling tree.size [] 0 child where
  held parent := by
    rw [← inPlace.held, filledSlots]
    split
    · next same => rw [same, slots_outside (Nat.le_refl _), List.take_nil]
    · rfl
  apart := inPlace.apart
  fixed := by
    rw [family?, get?_eq_none (Nat.le_refl _)]
    rfl
  pending position _ := by
    rw [slots_outside (Nat.le_refl _)]

theorem of_filling (filling : tree.Filling fresh children filled child)
    (complete : children.length ≤ filled) : tree.InPlace child where
  held parent := by
    rw [← filling.held, filledSlots]
    split
    · next same =>
      have none : ((tree.slots (some parent)).drop filled).count (some child) = 0 := by
        refine List.count_eq_zero.mpr fun member => ?_
        obtain ⟨position, held⟩ := List.getElem?_of_mem member
        rw [List.getElem?_drop, same, filling.pending _ (Nat.le_add_right ..),
          List.getElem?_eq_none (Nat.le_trans complete (Nat.le_add_right ..))] at held
        cases held
      conv_lhs => rw [← List.take_append_drop filled (tree.slots (some parent))]
      rw [List.count_append, none, Nat.add_zero]
    · rfl
  apart := filling.apart

theorem mem_iff (inPlace : tree.InPlace child) :
    some child ∈ tree.slots (some parent) ↔ tree.parentOf (some child) = some parent := by
  rw [← List.count_pos_iff, inPlace.held]
  split
  · next held => simp [held]
  · next free => simp [free]

end InPlace

/-- A change that keeps the node in place and makes no new nodes. -/
structure Stays (child : NodeId) (before after : Tree) : Prop where
  inPlace : after.InPlace child
  size : after.size = before.size

theorem Stays.trans {middle : Tree} (first : Stays child before middle)
    (second : Stays child middle after) : Stays child before after :=
  ⟨second.inPlace, second.size.trans first.size⟩

namespace InPlace

theorem refl (inPlace : tree.InPlace child) : Stays child tree tree := ⟨inPlace, rfl⟩

theorem respanned (inPlace : before.InPlace child) (respanned : Respanned before after) :
    Stays child before after where
  inPlace.held parent := by rw [respanned.parentOf, ← inPlace.held, respanned.slots]
  inPlace.apart := by
    rw [respanned.parentOf]
    exact inPlace.apart
  size := respanned.size

theorem removeChild {removed : NodeId} (inPlace : tree.InPlace child)
    (own : removed = child → tree.parentOf (some child) = some parent) :
    Stays child tree (tree.removeChild parent (some removed)) :=
  ⟨of_filling (inPlace.filling.removeChild own).1 (Nat.zero_le _), size_removeChild ..⟩

theorem detach (inPlace : tree.InPlace child) (other : NodeId) :
    Stays child tree (tree.detach (some other)) :=
  ⟨of_filling (inPlace.filling.detach other).1 (Nat.zero_le _), size_detach ..⟩

theorem removeAt (inPlace : tree.InPlace child) (handle : Handle) (position : Nat) :
    Stays child tree (tree.removeAt handle position).1 ∧
      ((tree.removeAt handle position).2 = some child → child < tree.size ∧
        (tree.removeAt handle position).1.parentOf (some child) = none) := by
  rcases removeAt_cases tree handle position with same | ⟨list, removed, rfl, -, there, same⟩
  · rw [same]
    exact ⟨inPlace.refl, nofun⟩
  · obtain ⟨node, found, -⟩ := get?_of_mem_slots (List.mem_of_getElem? there)
    have held := there
    rw [slots_of_get? found] at held
    have outside : list = tree.size → removed = some child → position < 0 := fun beyond =>
      absurd (lt_size_of_get? found) (Nat.not_lt.mpr (Nat.le_of_eq beyond.symm))
    obtain ⟨still, free⟩ := inPlace.filling.unlink found held outside
    have unlinked : Stays child tree (tree.unlink list position removed) :=
      ⟨of_filling still (Nat.zero_le _), (size_modify ..).trans (size_modify ..)⟩
    have respanned := Respanned.recomputeListSpan (tree.unlink list position removed) (some list)
    rw [same]
    refine ⟨unlinked.trans (unlinked.inPlace.respanned respanned),
      fun (here : removed = some child) => ⟨?_, ?_⟩⟩
    · exact child_lt (inPlace.mem_iff.mp (here ▸ List.mem_of_getElem? there))
    · rw [respanned.parentOf]
      exact free here

section Place

variable {moved : NodeId} {old : Handle} {fill : List Handle → List Handle}

/-- Some child has been put into a slot, perhaps in the place of another. If it is this one,
it was in no slot; if the other is this one, it is in none afterwards. -/
theorem place (inPlace : tree.InPlace child) (room : parent < tree.size)
    (takes : tree.Takes parent fill)
    (comes : moved = child → tree.parentOf (some child) = none ∧ child < tree.size ∧ parent ≠ child)
    (distinct : old ≠ some moved)
    (counts : (fill (tree.slots (some parent))).count (some child) +
      (if old = some child then 1 else 0) =
      (tree.slots (some parent)).count (some child) + (if moved = child then 1 else 0)) :
    Stays child tree (tree.place parent moved old fill) := by
  have goes (gone : old = some child) : moved ≠ child ∧ tree.parentOf (some child) = some parent := by
    have other : moved ≠ child := fun same => distinct (same ▸ gone)
    refine ⟨other, inPlace.mem_iff.mp (List.count_pos_iff.mp ?_)⟩
    rw [if_pos gone, if_neg other] at counts
    omega
  have links : (tree.place parent moved old fill).parentOf (some child) =
      if old = some child then none else if moved = child then some parent
      else tree.parentOf (some child) := by
    rw [place_parentOf (fun same => (comes same.symm).2.1) fun gone =>
      ⟨Ne.symm (goes gone).1, (goes gone).2⟩]
    simp only [eq_comm]
  refine ⟨⟨held_of_counts parent (old = some child) (moved = child) inPlace.held
    (fun _ => place_slots_ne) ?_ (fun same => (comes same).1) (fun gone => (goes gone).1) links,
    ?_⟩, size_place ..⟩
  · rw [place_slots_self room takes]
    exact counts
  · rw [links]
    split
    · simp
    · split
      · next same => exact fun again => (comes same).2.2 (Option.some.inj again)
      · exact inPlace.apart

/-- The same for a child that first leaves its old place. -/
theorem move (inPlace : tree.InPlace child) (room : parent < tree.size)
    (takes : (tree.detach (some moved)).Takes parent fill)
    (present : moved = child → child < tree.size)
    (apart : tree.encloses (some moved) parent = false) (distinct : old ≠ some moved)
    (counts : (fill ((tree.detach (some moved)).slots (some parent))).count (some child) +
      (if old = some child then 1 else 0) =
      ((tree.detach (some moved)).slots (some parent)).count (some child) +
        (if moved = child then 1 else 0)) :
    Stays child tree ((tree.detach (some moved)).place parent moved old fill) := by
  have detached := inPlace.detach moved
  refine detached.trans (detached.inPlace.place (Nat.lt_of_lt_of_eq room detached.size.symm) takes
    (fun same => ⟨(inPlace.filling.detach moved).2 same, ?_, ?_⟩) distinct counts)
  · exact Nat.lt_of_lt_of_eq (present same) detached.size.symm
  · exact same ▸ (not_encloses_self_ne apart).symm

end Place

/-- Slots of one node have changed, but not as to this node. -/
theorem refill {change : Node → Node} (inPlace : tree.InPlace child)
    (parents : ∀ node, (change node).parent = node.parent)
    (counts : ∀ node, tree.get? (some parent) = some node →
      (change node).slots.count (some child) = node.slots.count (some child)) :
    Stays child tree (tree.modify (some parent) change) where
  inPlace.held other := by
    rw [parentOf_modify parents, ← inPlace.held, slots, slots, get?_modify]
    split
    · next same =>
      subst same
      cases found : tree.get? (some other) with
      | none => rfl
      | some node => exact counts node found
    · rfl
  inPlace.apart := by
    rw [parentOf_modify parents]
    exact inPlace.apart
  size := size_modify ..

theorem insertElement_none (inserted : tree.insertElement list position none = some after) :
    ∃ place, Respanned (tree.modify (some list) (·.insertSlot place none)) after := by
  simp only [Tree.insertElement, bind, Option.bind_eq_some_iff] at inserted
  obtain ⟨_, -, _, -, same⟩ := inserted
  obtain rfl := Option.some.inj same
  have adopted : tree.adopt list none = tree := rfl
  rw [adopted]
  exact ⟨_, (Respanned.fitList _ _ _ _).trans (.widenAncestors _ _)⟩

/-- An insertion, also of nothing: this is what a list is given that takes over an empty
element. -/
theorem insertElement (inPlace : tree.InPlace child)
    (present : handle = some child → child < tree.size)
    (inserted : tree.insertElement list position handle = some after) : Stays child tree after := by
  cases handle with
  | some moved =>
    obtain ⟨apart, isList, place, fitted, least, rfl, fit⟩ := insertElement_cases inserted
    have within : place ≤ ((tree.detach (some moved)).slots (some list)).length :=
      least ▸ Nat.min_le_right _ _
    have room := lt_size_of_family? isList
    rw [size_detach] at room
    let placed := (tree.detach (some moved)).place list moved none (·.insertIdx place (some moved))
    have stays : Stays child tree placed := by
      refine inPlace.move room (takes_of_isList isList _)
        (fun same => present (congrArg some same)) apart nofun ?_
      simpa using count_insertIdx within (some moved) (some child)
    have respanned : Respanned placed fitted := fit ▸ .fitList placed _ _ _
    exact stays.trans (stays.inPlace.respanned (respanned.trans (.widenAncestors _ _)))
  | none =>
    obtain ⟨place, respanned⟩ := insertElement_none inserted
    have stays : Stays child tree (tree.modify (some list) (·.insertSlot place none)) :=
      inPlace.refill (fun node => node.withSlots_parent _) fun node _ =>
        node.count_insertSlot_none place child
    exact stays.trans (stays.inPlace.respanned respanned)

theorem moveElements {source : NodeId} (inPlace : tree.InPlace child) (behind : Nat → Nat)
    (list : NodeId) (count position : Nat) :
    Stays child tree (tree.moveElements behind list source count position) := by
  induction count generalizing tree position with
  | zero => exact inPlace.refl
  | succ count ih =>
    obtain ⟨removed, taken⟩ := inPlace.removeAt (some source) 0
    unfold Tree.moveElements
    dsimp only
    split
    · next inserted same =>
      have stays := removed.inPlace.insertElement (fun here =>
        Nat.lt_of_lt_of_eq (taken here).1 removed.size.symm) same
      exact removed.trans (stays.trans (ih stays.inPlace _))
    · exact removed.trans (ih removed.inPlace _)

theorem insert {target : Handle} (inPlace : tree.InPlace child)
    (present : handle = some child → child < tree.size)
    (inserted : tree.insertBy behind target position handle = some after) :
    Stays child tree after := by
  obtain ⟨list, moved, family, rfl, rfl, -, -, ⟨-, rfl⟩ | ⟨-, inserted⟩⟩ := insert_cases inserted
  · exact inPlace.moveElements ..
  · exact inPlace.insertElement present inserted

theorem replaceChild {old : Handle} {new : Handle} (inPlace : tree.InPlace child)
    (present : new = some child → child < tree.size)
    (replaced : tree.replaceChild handle old new = some after) : Stays child tree after := by
  obtain ⟨parent, gone, rfl, rfl, member, ⟨-, rfl⟩ | ⟨-, rfl⟩ |
    ⟨moved, node, position, rfl, distinct, apart, found, there, rfl⟩⟩ := replaceChild_cases replaced
  · exact inPlace.refl
  · exact inPlace.removeChild fun same => inPlace.mem_iff.mp (same ▸ member)
  · have stays : Stays child tree ((tree.detach (some moved)).place parent moved (some gone)
        (·.set position (some moved))) := by
      refine inPlace.move (lt_size_of_get? found) (takes_set _ _ _ _)
        (fun same => present (congrArg some same)) apart
        (fun same => distinct (Option.some.inj same)) ?_
      simpa using count_set_add there (some moved) (some child)
    exact stays.trans (stays.inPlace.respanned
      (.trans (.refreshIfList _ parent node) (.widenAncestors _ _)))

theorem setElement (inPlace : tree.InPlace child) {target : Handle}
    (present : handle = some child → child < tree.size)
    (set : tree.setElement target position handle = some after) : Stays child tree after := by
  rcases setElement_cases set with rfl | ⟨old, -, replaced⟩
  · exact (inPlace.removeAt target position).1
  · exact inPlace.replaceChild present replaced

theorem setChild {new : Handle} (inPlace : tree.InPlace child)
    (present : new = some child → child < tree.size)
    (set : tree.setChild handle position new = some after) : Stays child tree after := by
  rcases setChild_cases set with rfl | rfl | ⟨old, -, replaced⟩ |
    ⟨parent, moved, rfl, rfl, fixed, empty, apart, rfl⟩
  · exact inPlace.refl
  · exact (inPlace.removeAt handle position).1
  · exact inPlace.replaceChild present replaced
  · have still := detach_empty moved fixed empty
    obtain ⟨node, found, -⟩ := get?_of_mem_slots (List.mem_of_getElem? empty)
    have stays : Stays child tree ((tree.detach (some moved)).place parent moved none
        (·.set position (some moved))) := by
      refine inPlace.move (lt_size_of_get? found) (takes_set _ _ _ _)
        (fun same => present (congrArg some same)) apart
        nofun ?_
      simpa using count_set_add still (some moved) (some child)
    exact stays.trans (stays.inPlace.respanned (.widenAncestors _ _))

theorem appendAll {nodes : List Handle} (inPlace : tree.InPlace child) (target : Handle)
    (present : some child ∈ nodes → child < tree.size) :
    Stays child tree (tree.appendAll target nodes) := by
  induction nodes generalizing tree with
  | nil => exact inPlace.refl
  | cons node rest ih =>
    have step : Stays child tree ((tree.append target node).getD tree) := by
      cases appended : tree.append target node with
      | none => exact inPlace.refl
      | some next =>
        exact inPlace.insert (fun same => present (same ▸ List.mem_cons_self)) appended
    refine step.trans (ih step.inPlace fun member => ?_)
    rw [step.size]
    exact present (List.mem_cons_of_mem _ member)

theorem parentOf_ne_size (inPlace : tree.InPlace child) :
    tree.parentOf (some child) ≠ some tree.size := by
  intro held
  have member := inPlace.mem_iff.mpr held
  rw [slots_outside (Nat.le_refl _)] at member
  cases member

/-- A list is made empty; then it is given its elements. -/
theorem addList (inPlace : tree.InPlace child) (family : ListFamily) (span : Span)
    {elements : List Handle} (present : some child ∈ elements → child < tree.size) :
    (tree.addList family span elements).tree.InPlace child ∧
      (tree.addList family span elements).tree.size = tree.size + 1 := by
  let pushed := tree.push (.emptyList family span)
  have links : pushed.parentOf (some child) = tree.parentOf (some child) :=
    parentOf_push rfl tree child
  have placed : pushed.InPlace child := by
    refine ⟨fun parent => ?_, links ▸ inPlace.apart⟩
    rw [links, slots_push]
    split
    · next same =>
      rw [same, if_neg inPlace.parentOf_ne_size]
      rfl
    · exact inPlace.held parent
  have stays := placed.appendAll (some tree.size) fun member =>
    Nat.lt_of_lt_of_eq (Nat.lt_succ_of_lt (present member)) (size_push ..).symm
  exact ⟨stays.inPlace, stays.size.trans (size_push ..)⟩

theorem add (inPlace : tree.InPlace child) {form : Form} (fixed : form.family? = none)
    {children : List Handle} (present : some child ∈ children → child < tree.size) (span : Span)
    (admits : form.Admits children) :
    (tree.add form children span admits).tree.InPlace child ∧
      (tree.add form children span admits).tree.size = tree.size + 1 := by
  let pushed := tree.push { form, slots := children, span, admits }
  have links : pushed.parentOf (some child) = tree.parentOf (some child) :=
    parentOf_push rfl tree child
  have begins : pushed.Filling tree.size children 0 child := by
    refine ⟨fun parent => ?_, links ▸ inPlace.apart, ?_, fun position _ => ?_⟩
    · rw [links, filledSlots, slots_push]
      split
      · next same =>
        rw [same, if_neg inPlace.parentOf_ne_size]
        rfl
      · exact inPlace.held parent
    · rw [family?_push, if_pos rfl]
      exact fixed
    · rw [slots_push, if_pos rfl]
  have all (filled : Nat) :
      ((List.range filled).foldl (·.attachSlot tree.size ·) pushed).Filling tree.size children
          filled child ∧
        ((List.range filled).foldl (·.attachSlot tree.size ·) pushed).size = tree.size + 1 := by
    induction filled with
    | zero => exact ⟨begins, size_push ..⟩
    | succ filled ih =>
      obtain ⟨filling, size⟩ := ih
      rw [List.range_succ, List.foldl_append, List.foldl_cons, List.foldl_nil]
      obtain ⟨next, same⟩ := filling.attachSlot present
        (Nat.lt_of_lt_of_eq (Nat.lt_succ_self _) size.symm)
      exact ⟨next, same.trans size⟩
  obtain ⟨filling, size⟩ := all children.length
  exact ⟨of_filling filling (Nat.le_refl _), size⟩

theorem addWithList (inPlace : tree.InPlace child) {form : Form} (fixed : form.family? = none)
    (family : ListFamily) (span : Span) {first elements last : List Handle}
    (admits : ∀ list, form.Admits (first ++ list :: last))
    (presentAround : some child ∈ first ++ last → child < tree.size)
    (present : some child ∈ elements → child < tree.size) :
    (tree.addWithList form family span first elements last admits).tree.InPlace child ∧
      tree.size ≤ (tree.addWithList form family span first elements last admits).tree.size := by
  have same : tree.addWithList form family span first elements last admits =
      (tree.addList family span.atStart elements).tree.add form (first ++ some tree.size :: last)
        span (admits _) := rfl
  obtain ⟨listed, size⟩ := inPlace.addList family span.atStart present
  obtain ⟨made, larger⟩ := listed.add fixed (fun member =>
    Nat.lt_of_lt_of_eq (lt_of_mem_around presentAround member) size.symm) span (admits _)
  rw [same]
  exact ⟨made, by omega⟩

theorem build (inPlace : tree.InPlace child) (construction : Construction) (span : Span)
    (present : some child ∈ construction.handles → child < tree.size) :
    (construction.build tree span).tree.InPlace child := by
  rcases construction.build_cases tree span with ⟨form, children, admits, fixed, named, same⟩ |
    ⟨form, family, first, elements, last, admits, fixed, around, inside, same⟩ |
    ⟨family, elements, named, same⟩
  · rw [same]
    exact (inPlace.add fixed (fun member => present (named member)) span admits).1
  · rw [same]
    exact (inPlace.addWithList fixed family span admits (fun member => present (around member))
      fun member => present (inside member)).1
  · rw [same]
    exact (inPlace.addList family span fun member => present (named member)).1

theorem commaAround {id : NodeId} (inPlace : tree.InPlace child) (present : id < tree.size)
    (span : Span) : (tree.commaAround id span).tree.InPlace child ∧
      tree.size ≤ (tree.commaAround id span).tree.size := by
  unfold Tree.commaAround
  split
  · exact ⟨inPlace, Nat.le_refl _⟩
  · refine inPlace.addWithList rfl .expressions _ (fun _ _ => rfl) nofun fun member => ?_
    rwa [Option.some.inj (List.mem_singleton.mp member)]

/-- Two expressions are joined only when both are there by then, so neither is given away too
early. -/
theorem combineWithComma (inPlace : tree.InPlace child) (left right : Handle) :
    (tree.combineWithComma left right).1.InPlace child := by
  rcases combineWithComma_cases tree left right with same | ⟨id, node, rfl, found, rest⟩
  · rw [same]
    exact inPlace
  obtain ⟨still, -⟩ := inPlace.commaAround (lt_size_of_get? found) node.span
  dsimp only at rest
  generalize tree.commaAround id node.span = sequence at rest still
  rcases rest with same | ⟨list, addition, joined, listed, added, known, appended, rest⟩
  · rw [same]
    exact still
  have joins := still.insert (fun (named : addition = some child) => by
    subst named
    rcases added with rfl | inner
    · obtain ⟨node, stands⟩ := Option.isSome_iff_exists.mp known
      exact lt_size_of_get? stands
    · have slot := commaList?_slot inner
      cases right with
      | none => cases known
      | some other =>
        rw [slot_eq, eq_comm, Option.join_eq_some_iff] at slot
        exact child_lt (still.mem_iff.mp (List.mem_of_getElem? slot))) appended
  rcases rest with same | ⟨previous, -, linked, same⟩
  · rw [same]
    exact joins.inPlace
  · rw [same]
    cases right with
    | none => cases known
    | some other =>
      refine (joins.inPlace.removeChild fun here => ?_).inPlace
      exact here ▸ linked

end InPlace

end Tree

namespace Operation

open ScriptSyntax.Tree

/-- The nodes that a call is to put into slots. Two expressions that are joined are looked at
first. -/
def given : Operation → List Handle
  | make construction _ => construction.handles
  | append _ node | insert _ _ node | setElement _ _ node => [node]
  | replaceChild _ _ new | setChild _ _ new => [new]
  | removeAt .. | combineWithComma .. | setScope .. | bindLookup .. => []

/-- The call gives a node away before there is such a node, and is carried out. -/
def Anticipates (operation : Operation) (tree : Tree) (id : NodeId) : Prop :=
  some id ∈ operation.given ∧ tree.size ≤ id ∧ (operation.attempt tree).isSome

instance (operation : Operation) (tree : Tree) (id : NodeId) :
    Decidable (operation.Anticipates tree id) :=
  inferInstanceAs (Decidable (_ ∧ _ ∧ _))

/-- None of the calls, made one after another, gives the node away too early. -/
def NeverAnticipates (id : NodeId) : List Operation → Tree → Prop
  | [], _ => True
  | operation :: later, tree =>
    ¬ operation.Anticipates tree id ∧ NeverAnticipates id later (operation.apply tree)

instance decidableNeverAnticipates (id : NodeId) :
    (operations : List Operation) → (tree : Tree) → Decidable (NeverAnticipates id operations tree)
  | [], _ => inferInstanceAs (Decidable True)
  | operation :: later, tree =>
    have := decidableNeverAnticipates id later (operation.apply tree)
    inferInstanceAs (Decidable (_ ∧ _))

variable {tree : Tree} {operation : Operation} {operations : List Operation} {id : NodeId}

/-- A call keeps a node in place that it does not give away too early. -/
theorem apply_inPlace (inPlace : tree.InPlace id) (never : ¬ operation.Anticipates tree id) :
    (operation.apply tree).InPlace id := by
  rw [apply_eq]
  cases carried : operation.attempt tree with
  | none => exact inPlace
  | some after =>
    have present (named : some id ∈ operation.given) : id < tree.size := by
      by_contra early
      exact never ⟨named, Nat.le_of_not_lt early, by rw [carried]; rfl⟩
    dsimp only [Option.getD_some]
    cases operation with
    | make construction span =>
      obtain rfl := Option.some.inj carried
      exact inPlace.build construction span present
    | append list node | insert list position node =>
      exact (inPlace.insert (fun same => present (same ▸ List.mem_singleton_self _)) carried).inPlace
    | setElement list position node =>
      exact (inPlace.setElement (fun same => present (same ▸ List.mem_singleton_self _))
        carried).inPlace
    | removeAt list position =>
      obtain rfl := Option.some.inj carried
      exact (inPlace.removeAt list position).1.inPlace
    | replaceChild parent old new =>
      exact (inPlace.replaceChild (fun same => present (same ▸ List.mem_singleton_self _))
        carried).inPlace
    | setChild parent position new =>
      exact (inPlace.setChild (fun same => present (same ▸ List.mem_singleton_self _))
        carried).inPlace
    | combineWithComma left right =>
      obtain rfl := Option.some.inj carried
      exact inPlace.combineWithComma left right
    | setScope node scope =>
      exact (inPlace.respanned (setScope_respanned carried)).inPlace
    | bindLookup node scopes =>
      obtain ⟨bound, binds, rfl⟩ := Option.map_eq_some_iff.mp carried
      exact (inPlace.respanned (bindLookup_respanned binds)).inPlace

theorem applyAll_inPlace (inPlace : tree.InPlace id) (never : NeverAnticipates id operations tree) :
    (applyAll operations tree).InPlace id := by
  induction operations generalizing tree with
  | nil => exact inPlace
  | cons operation later ih => exact ih (apply_inPlace inPlace never.1) never.2

theorem inPlace_empty (id : NodeId) : ({} : Tree).InPlace id where
  held parent := by simp [slots, get?, parentOf]
  apart := by simp [get?, parentOf]

/-- Whatever handles calls are given, a node that none of them gives away before it is there is
in no slot until it is there, and then in one slot only, of another node, its parent. -/
theorem applyAll_no_strays (never : NeverAnticipates id operations {}) {parent : NodeId}
    {position : Nat} (held : (applyAll operations {}).slot (some parent) position = some id) :
    id < (applyAll operations {}).size ∧ id ≠ parent ∧
      (applyAll operations {}).parentOf (some id) = some parent ∧
      ((applyAll operations {}).slots (some parent)).count (some id) = 1 := by
  have inPlace := applyAll_inPlace (inPlace_empty id) never
  rw [slot_eq, Option.join_eq_some_iff] at held
  have linked := inPlace.mem_iff.mp (List.mem_of_getElem? held)
  refine ⟨child_lt linked, ?_, linked, ?_⟩
  · rintro rfl
    exact inPlace.apart linked
  · rw [inPlace.held, if_pos linked]

/-- A sum is given an operand that is still to be made and one that is there. The latter moves
on to a list, beside an element that is never made. -/
theorem applyAll_no_strays_of_early_operand :
    let calls : List Operation := [.make (.lookup "a") .empty,
      .make (.binary (.punctuator .plus) (some 2) (some 0)) .empty, .make (.lookup "b") .empty,
      .setChild (some 2) 0 (some 0), .append (some 7) (some 0),
      .make (.list .expressions [some 0, some 9]) .empty]
    NeverAnticipates 0 calls {} ∧ (applyAll calls {}).slot (some 3) 0 = some 0 ∧
      (applyAll calls {}).parentOf (some 0) = some 3 := by
  intro calls
  have never : NeverAnticipates 0 calls {} := by decide
  have held : (applyAll calls {}).slot (some 3) 0 = some 0 := by decide
  exact ⟨never, held, (applyAll_no_strays never held).2.2.1⟩

/-- A node that is given away before it is there is in a slot all the same; if it is the one
that is being made, it is its own child, and if it is made later, it does not know its
parent. -/
theorem strays_of_early_operands :
    (¬ ∀ (operations : List Operation) (parent : NodeId) (position : Nat) (id : NodeId),
      (applyAll operations {}).slot (some parent) position = some id →
        id < (applyAll operations {}).size) ∧
    (¬ ∀ (operations : List Operation) (parent : NodeId) (position : Nat) (id : NodeId),
      (applyAll operations {}).slot (some parent) position = some id → id ≠ parent) ∧
    ¬ ∀ (operations : List Operation) (parent : NodeId) (position : Nat) (id : NodeId),
      (applyAll operations {}).slot (some parent) position = some id →
        id < (applyAll operations {}).size →
        (applyAll operations {}).parentOf (some id) = some parent := by
  let sum (operand : NodeId) : Operation :=
    .make (.binary (.punctuator .plus) (some operand) none) .empty
  refine ⟨fun all => ?_, fun all => ?_, fun all => ?_⟩
  · exact absurd (all [sum 7] 0 0 7 (by decide)) (by decide)
  · exact all [sum 0] 0 0 0 (by decide) rfl
  · exact absurd (all [sum 1, .make (.lookup "a") .empty] 0 0 1 (by decide) (by decide)) (by decide)

end Operation

end ScriptSyntax
