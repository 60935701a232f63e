import ScriptSyntax.Proofs.Tree.Replacement
import Mathlib.Data.List.Basic

/-! What an insertion into a list does to a tree in order, as a whole: no element is lost,
doubled or put out of order. A node comes to stand between two elements and leaves where it
was; a list of the same family gives up its elements instead and stays where it is. -/
namespace ScriptSyntax

section Rows

variable {row : List Handle} {child : NodeId}

/-- A row of elements with a node put in before a position, or at the end if the row is
shorter. If the node stood ahead of the position, that comes one nearer when it leaves. -/
def insertedRow (position : Nat) (child : NodeId) (row : List Handle) : List Handle :=
  let place := if some child ∈ row.take position then position - 1 else position
  let others := row.erase (some child)
  others.insertIdx (min place others.length) (some child)

theorem spared_eq_erase (once : row.count (some child) ≤ 1) :
    spared [child] true row = row.erase (some child) := by
  induction row with
  | nil => rfl
  | cons handle row ih =>
    rw [List.count_cons] at once
    rw [spared_cons]
    by_cases same : handle = some child
    · subst same
      have gone : some child ∉ row := List.count_eq_zero.mp (by simpa using once)
      rw [spared_of_not_mem gone, List.erase_cons_head]
      simp [remains]
    · rw [ih (Nat.le_of_add_right_le once), List.erase_cons_tail (by simpa using same)]
      cases handle with
      | none => rfl
      | some id =>
        have kept : id ∉ [child] := by simpa using same
        rw [remains_kept kept, List.singleton_append]

theorem insertIdx_min (row : List Handle) (position : Nat) (handle : Handle) :
    row.insertIdx (min position row.length) handle =
      row.take position ++ handle :: row.drop position := by
  induction row generalizing position with
  | nil => simp
  | cons first row ih =>
    cases position with
    | zero => simp
    | succ position => simp [← ih, Nat.succ_min_succ]

theorem insertedRow_of_not_mem (free : some child ∉ row) (position : Nat) :
    insertedRow position child row =
      row.take position ++ some child :: row.drop position := by
  unfold insertedRow
  rw [if_neg fun early => free (List.mem_of_mem_take early), List.erase_of_not_mem free,
    insertIdx_min]

theorem take_drop_inserted (row : List Handle) (position : Nat) (handle : Handle) :
    (row.take position ++ handle :: row.drop position).take (position + 1) =
        row.take position ++ [handle] ∧
      (row.take position ++ handle :: row.drop position).drop (position + 1) =
        row.drop position := by
  induction row generalizing position with
  | nil => simp
  | cons first row ih => cases position <;> simp [ih]

/-- A row into which elements are put one by one, each before the position `behind` that of
the one before. -/
def inlinedRow (behind : Nat → Nat) : (position : Nat) → (elements row : List Handle) → List Handle
  | _, [], row => row
  | position, element :: elements, row =>
    inlinedRow behind (behind position) elements
      (row.take position ++ element :: row.drop position)

/-- Where each position follows on the one before, the elements stay together. -/
theorem inlinedRow_succ (position : Nat) (elements row : List Handle) :
    inlinedRow (· + 1) position elements row =
      row.take position ++ elements ++ row.drop position := by
  induction elements generalizing position row with
  | nil => simp [inlinedRow]
  | cons element elements ih =>
    obtain ⟨ahead, rest⟩ := take_drop_inserted row position element
    rw [inlinedRow, ih, ahead, rest]
    simp

end Rows

namespace Tree

variable {tree before middle after : Tree} {list source child : NodeId} {position : Nat}

/-- One node has been put into a list. -/
structure Inserted (before after : Tree) (list : NodeId) (position : Nat) (child : NodeId) :
    Prop where
  owned : after.Owned
  size : after.size = before.size
  forms : KeepsForms before after
  parentOf : ∀ id, after.parentOf (some id) =
    if id = child then some list else before.parentOf (some id)
  row : after.slots (some list) = insertedRow position child (before.slots (some list))
  others : ∀ id ≠ list, after.slots (some id) =
    spared [child] (before.family? (some id)).isSome (before.slots (some id))

/-- A list has taken over the elements of another, one after the other. -/
structure Inlined (behind : Nat → Nat) (before after : Tree) (list : NodeId) (position : Nat)
    (source : NodeId) : Prop where
  owned : after.Owned
  size : after.size = before.size
  forms : KeepsForms before after
  parentOf : ∀ id, after.parentOf (some id) =
    if before.parentOf (some id) = some source then some list else before.parentOf (some id)
  row : after.slots (some list) =
    inlinedRow behind position (before.slots (some source)) (before.slots (some list))
  emptied : after.slots (some source) = []
  others : ∀ id, id ≠ list → id ≠ source → after.slots (some id) = before.slots (some id)

theorem Owned.count_le_one (owned : tree.Owned) (list child : NodeId) :
    (tree.slots (some list)).count (some child) ≤ 1 := by
  rw [owned.held]
  split <;> decide

theorem elements_eq (isList : (tree.family? (some list)).isSome) :
    tree.elements (some list) = tree.slots (some list) :=
  if_pos isList

/-- A node has to have been ahead of the position for this to come nearer. -/
theorem Owned.placeFor_eq (owned : tree.Owned) (isList : (tree.family? (some list)).isSome)
    (position : Nat) (child : NodeId) : tree.placeFor list position (some child) =
      if some child ∈ (tree.slots (some list)).take position then position - 1
      else position := by
  unfold placeFor
  rw [elements_eq isList]
  by_cases member : some child ∈ tree.slots (some list)
  · obtain ⟨current, found⟩ := Option.isSome_iff_exists.mp (List.isSome_idxOf?.mpr member)
    have first : (tree.slots (some list)).idxOf (some child) = current := by
      rw [List.idxOf_eq_getD_idxOf?, found]
      rfl
    rw [if_pos (owned.mem_slots_iff.mp member), found]
    simp only [List.mem_take_iff_idxOf_lt member, first]
  · rw [if_neg (mt owned.mem_slots_iff.mpr member),
      if_neg fun early => member (List.mem_of_mem_take early)]

theorem Owned.insertElement_inserted (owned : tree.Owned) (present : child < tree.size)
    (inserted : tree.insertElement list position (some child) = some after) :
    Inserted tree after list position child := by
  obtain ⟨still, size, -⟩ := (owned.insertElement present inserted).owned owned
  obtain ⟨-, isList, room, fitted, least, same, fit⟩ := insertElement_cases inserted
  have detached := owned.detach_pruned child
  have listed : (tree.family? (some list)).isSome := detached.family? list ▸ isList
  have inside : child < (tree.detach (some child)).size :=
    Nat.lt_of_lt_of_eq present detached.size.symm
  let placed := (tree.detach (some child)).place list child none (·.insertIdx room (some child))
  have place : Placed (tree.detach (some child)) placed list child none :=
    place_placed _ inside nofun
  have respanned : Respanned placed after := by
    rw [same, fit]
    exact (Respanned.fitList placed _ _ _).trans (.widenAncestors ..)
  have forms : KeepsForms placed fitted := by
    rw [fit]
    split
    · exact .recomputeListSpan ..
    · exact .widenOver ..
  refine ⟨still, size, ?_, fun id => ?_, ?_, fun id other => ?_⟩
  · rw [same]
    exact (KeepsForms.detach ..).trans ((KeepsForms.place ..).trans
      (forms.trans (KeepsForms.bubbleSpan ..)))
  · rw [respanned.parentOf, owned.parentOf_placed place, if_neg nofun]
  · have others : (tree.detach (some child)).slots (some list) =
        (tree.slots (some list)).erase (some child) := by
      rw [detached.slots, listed, spared_eq_erase (owned.count_le_one list child)]
    rw [respanned.slots, place_slots_self (lt_size_of_family? isList) (takes_of_isList isList _),
      least, others, owned.placeFor_eq listed]
    rfl
  · rw [respanned.slots, place.slots id other, detached.slots]

/-- What is taken out of a list by its place is detached. -/
theorem Owned.removeAt_eq_detach (owned : tree.Owned)
    (isList : (tree.family? (some list)).isSome)
    (there : (tree.slots (some list))[position]? = some (some child)) :
    tree.removeAt (some list) position = (tree.detach (some child), some child) := by
  have held := owned.mem_slots_iff.mp (List.mem_of_getElem? there)
  obtain ⟨node, first, found, stands, early, same⟩ :=
    removeChild_eq (List.mem_of_getElem? there)
  have once := owned.held list child
  rw [if_pos held] at once
  have alone : first = position := by
    rw [slots_of_get? found] at there once
    have bound : first ≤ position := Nat.le_of_lt_succ (early (position + 1) (by
      rw [List.take_add_one, there]
      simp))
    refine Nat.le_antisymm bound (Nat.not_lt.mp fun less => ?_)
    refine (split_of_count_eq_one there once).2.1 (List.mem_of_getElem? (i := first) ?_)
    rw [List.getElem?_take_of_lt less, stands]
  have listed : node.isList := by
    rw [family?_of_get? found] at isList
    exact isList
  rw [removeAt_eq isList there, Tree.detach, held]
  simp only [same, Tree.refreshIfList, listed, if_true, alone]

/-- A node that is not the list and has not had the child keeps its slots. -/
theorem Inserted.slots_elsewhere {id : NodeId}
    (inserted : Inserted before after list position child) (owned : before.Owned)
    (other : id ≠ list) (elsewhere : before.parentOf (some child) ≠ some id) :
    after.slots (some id) = before.slots (some id) := by
  rw [inserted.others id other, spared_of_not_mem (mt owned.mem_slots_iff.mp elsewhere)]

/-- The first element of a list has gone over to another list. -/
structure HandedOver (before after : Tree) (list : NodeId) (position : Nat)
    (source child : NodeId) : Prop where
  owned : after.Owned
  size : after.size = before.size
  forms : KeepsForms before after
  parentOf : ∀ id, after.parentOf (some id) =
    if id = child then some list else before.parentOf (some id)
  row : after.slots (some list) = (before.slots (some list)).take position ++
    some child :: (before.slots (some list)).drop position
  left : before.slots (some source) = some child :: after.slots (some source)
  others : ∀ id, id ≠ list → id ≠ source → after.slots (some id) = before.slots (some id)

/-- Taking the first element out of a list and putting it into another, which neither is nor
is below it. -/
theorem Owned.handOver {others : List Handle} (owned : tree.Owned) (acyclic : tree.Acyclic)
    (shallow : tree.ShallowAt list) (outside : ¬ tree.Upward list source)
    (isList : (tree.family? (some list)).isSome) (listed : (tree.family? (some source)).isSome)
    (shape : tree.slots (some source) = some child :: others) (behind : Nat → Nat)
    (count position : Nat) :
    ∃ after, tree.moveElements behind list source (count + 1) position =
        after.moveElements behind list source count (behind position) ∧
      HandedOver tree after list position source child ∧ Moves list tree after := by
  have distinct : source ≠ list := fun same => outside (.inl same)
  have there : (tree.slots (some source))[0]? = some (some child) := by rw [shape]; rfl
  have held := owned.mem_slots_iff.mp (List.mem_of_getElem? there)
  have detached := owned.detach_pruned child
  have moves := (owned.detach_moved child list).moves
  have forms := KeepsForms.detach tree (some child)
  have taken := owned.removeAt_eq_detach listed there
  generalize tree.detach (some child) = rest at detached moves forms taken
  have free : rest.parentOf (some child) = none := by
    rw [detached.parentOf, if_pos (List.mem_singleton_self child)]
  have nowhere (id : NodeId) : rest.parentOf (some child) ≠ some id := by
    rw [free]
    nofun
  have present : child < rest.size := Nat.lt_of_lt_of_eq (child_lt held) detached.size.symm
  have target : (rest.family? (some list)).isSome := detached.family? list ▸ isList
  obtain ⟨after, result⟩ : ∃ after,
      rest.insertElement list position (some child) = some after := by
    refine Option.ne_none_iff_exists'.mp
      (mt (detached.owned.insertElement_eq_none_iff target).mp ?_)
    rw [encloses_iff, (moves.shallowAt shallow).mem_ancestors_iff]
    rintro (rfl | higher)
    · exact outside (.inr (.of_parent held))
    · exact outside (.inr (((moves.acyclic acyclic shallow).2 child higher).tail held))
  have put := detached.owned.insertElement_inserted present result
  refine ⟨after, ?_, ⟨put.owned, put.size.trans detached.size, forms.trans put.forms,
    fun id => ?_, ?_, ?_, fun id other elsewhere => ?_⟩,
    moves.trans (detached.owned.insertElement present result)⟩
  · rw [moveElements, taken]
    simp only [result]
  · rw [put.parentOf, detached.parentOf]
    by_cases same : id = child <;> simp [same]
  · have apart : tree.parentOf (some child) ≠ some list :=
      fun same => distinct (Option.some.inj (held.symm.trans same))
    have old := detached.slots_elsewhere owned apart
    rw [put.row, insertedRow_of_not_mem (mt detached.owned.mem_slots_iff.mp (nowhere list)), old]
  · rw [put.slots_elsewhere detached.owned distinct (nowhere source), detached.slots, listed,
      spared_eq_erase (owned.count_le_one source child), shape, List.erase_cons_head]
  · rw [put.slots_elsewhere detached.owned other (nowhere id), detached.slots_elsewhere owned
      fun same => elsewhere (Option.some.inj (held.symm.trans same)).symm]

/-- Behind the first element come the others. -/
theorem HandedOver.inlined {behind : Nat → Nat}
    (handed : HandedOver before middle list position source child)
    (owned : before.Owned) (distinct : source ≠ list)
    (inlined : Inlined behind middle after list (behind position) source) :
    Inlined behind before after list position source where
  owned := inlined.owned
  size := inlined.size.trans handed.size
  forms := handed.forms.trans inlined.forms
  parentOf id := by
    have held : before.parentOf (some child) = some source :=
      owned.mem_slots_iff.mp (by rw [handed.left]; exact List.mem_cons_self)
    rw [inlined.parentOf, handed.parentOf]
    by_cases same : id = child
    · rw [if_pos same, if_neg fun back => distinct (Option.some.inj back).symm, same, held,
        if_pos rfl]
    · rw [if_neg same]
  row := by rw [inlined.row, handed.row, handed.left, inlinedRow]
  emptied := inlined.emptied
  others id other elsewhere :=
    (inlined.others id other elsewhere).trans (handed.others id other elsewhere)

/-- One list takes over all elements of another that does not enclose it. By induction on the
elements that have still to move. -/
theorem Owned.moveElements_inlined {count : Nat} (owned : tree.Owned) (acyclic : tree.Acyclic)
    (shallow : tree.ShallowAt list) (outside : ¬ tree.Upward list source)
    (isList : (tree.family? (some list)).isSome) (listed : (tree.family? (some source)).isSome)
    (length : (tree.slots (some source)).length = count) (behind : Nat → Nat) (position : Nat) :
    Inlined behind tree (tree.moveElements behind list source count position) list position
      source := by
  induction count generalizing tree position with
  | zero =>
    have empty : tree.slots (some source) = [] := List.length_eq_zero_iff.mp length
    refine ⟨owned, rfl, .refl tree, fun id => ?_, ?_, empty, fun _ _ _ => rfl⟩
    · refine (if_neg fun held => ?_).symm
      have member := owned.mem_slots_iff.mpr held
      rw [empty] at member
      cases member
    · rw [empty]
      rfl
  | succ count ih =>
    obtain ⟨removed, others, shape⟩ := List.exists_cons_of_length_eq_add_one length
    have first : (tree.slots (some source))[0]? = some removed := by rw [shape]; rfl
    obtain ⟨child, rfl, -⟩ := owned.unlink_element listed first
    obtain ⟨middle, next, handed, moves⟩ :=
      owned.handOver acyclic shallow outside isList listed shape behind count position
    obtain ⟨circleless, higher⟩ := moves.acyclic acyclic shallow
    have families := (moves.owned owned).2.2
    rw [next]
    refine handed.inlined owned (fun same => outside (.inl same)) (ih handed.owned circleless
      (moves.shallowAt shallow) (fun up => outside (up.imp_right (higher source)))
      (by rwa [families]) (by rwa [families]) ?_ (behind position))
    rw [handed.left] at length
    exact Nat.succ.inj length

/-- A list takes in a node that it is not and is not below, or its elements. -/
theorem Owned.insert_placed {family : ListFamily} (owned : tree.Owned) (acyclic : tree.Acyclic)
    (shallow : tree.ShallowAt list) (listed : tree.family? (some list) = some family)
    (present : child < tree.size) (outside : ¬ tree.Upward list child) (behind : Nat → Nat)
    (position : Nat) :
    ∃ after, tree.insertBy behind (some list) position (some child) = some after ∧
      Moves list tree after ∧
      (tree.family? (some child) = some family →
        Inlined behind tree after list position child) ∧
      (tree.family? (some child) ≠ some family → Inserted tree after list position child) := by
  have isList : (tree.family? (some list)).isSome := Option.isSome_of_eq_some listed
  obtain ⟨after, result⟩ : ∃ after,
      tree.insertBy behind (some list) position (some child) = some after := by
    refine Option.ne_none_iff_exists'.mp (mt (owned.insert_eq_none_iff isList).mp ?_)
    rwa [encloses_iff, shallow.mem_ancestors_iff]
  refine ⟨after, result, owned.insert (fun id same => Option.some.inj same ▸ present) result, ?_⟩
  obtain ⟨target, source, kind, here, there, known, -, rest⟩ := insert_cases result
  obtain rfl := Option.some.inj here
  obtain rfl := Option.some.inj there
  obtain rfl := Option.some.inj (known.symm.trans listed)
  rcases rest with ⟨alike, rfl⟩ | ⟨other, inserted⟩
  · exact ⟨fun _ => owned.moveElements_inlined acyclic shallow outside isList
      (Option.isSome_of_eq_some alike) rfl behind position, fun other => absurd alike other⟩
  · exact ⟨fun alike => absurd alike other,
      fun _ => owned.insertElement_inserted present inserted⟩

end Tree

end ScriptSyntax
