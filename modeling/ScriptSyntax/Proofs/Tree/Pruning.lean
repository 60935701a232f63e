import ScriptSyntax.Proofs.Tree.Walking
import Mathlib.Algebra.Order.BigOperators.Group.List

/-! An editor that takes nodes out of the tree while they are visited. The walk goes on
behind what is left of a child: one slot further on, or in the same place if its list has
closed the gap. So it meets what a walk that changes nothing meets. -/
namespace ScriptSyntax

section Rows

variable {gone later : List NodeId} {isList : Bool} {row : List Handle} {id : NodeId}

/-- What is left of a slot when nodes are taken out. A list closes the gap. -/
def remains (gone : List NodeId) (isList : Bool) : Handle → List Handle
  | none => [none]
  | some id => if id ∉ gone then [some id] else if isList then [] else [none]

/-- What is left of a row of slots. -/
def spared (gone : List NodeId) (isList : Bool) (row : List Handle) : List Handle :=
  row.flatMap (remains gone isList)

theorem spared_append (gone : List NodeId) (isList : Bool) (row others : List Handle) :
    spared gone isList (row ++ others) = spared gone isList row ++ spared gone isList others :=
  List.flatMap_append

theorem spared_cons (gone : List NodeId) (isList : Bool) (handle : Handle) (row : List Handle) :
    spared gone isList (handle :: row) = remains gone isList handle ++ spared gone isList row :=
  List.flatMap_cons

theorem spared_singleton (gone : List NodeId) (isList : Bool) (handle : Handle) :
    spared gone isList [handle] = remains gone isList handle := by
  simp [spared]

/-- A slot that has lost its child is empty or closed. -/
theorem remains_eq_nil_or_length (gone : List NodeId) (isList : Bool) (handle : Handle) :
    (remains gone isList handle).length = 1 ∨
      remains gone isList handle = [] ∧ ∃ id ∈ gone, handle = some id := by
  cases handle with
  | none => exact .inl rfl
  | some id => by_cases member : id ∈ gone <;> cases isList <;> simp [remains, member]

theorem remains_kept (kept : id ∉ gone) : remains gone isList (some id) = [some id] :=
  if_pos kept

/-- Only the nodes of the row count. -/
theorem spared_congr (same : ∀ id, some id ∈ row → (id ∈ gone ↔ id ∈ later)) :
    spared gone isList row = spared later isList row := by
  refine List.flatMap_congr fun handle member => ?_
  cases handle with
  | none => rfl
  | some id => simp only [remains, same id member]

theorem spared_of_free (free : ∀ id, some id ∈ row → id ∉ gone) : spared gone isList row = row := by
  induction row with
  | nil => rfl
  | cons handle row ih =>
    rw [spared_cons, ih fun id member => free id (List.mem_cons_of_mem _ member)]
    cases handle with
    | none => rfl
    | some id => rw [remains_kept (free id List.mem_cons_self), List.singleton_append]

theorem spared_of_not_mem (free : some id ∉ row) : spared [id] isList row = row :=
  spared_of_free fun _ member same => free (List.mem_singleton.mp same ▸ member)

theorem spared_spared (gone later : List NodeId) (isList : Bool) (row : List Handle) :
    spared later isList (spared gone isList row) = spared (gone ++ later) isList row := by
  rw [spared, spared, List.flatMap_assoc]
  refine List.flatMap_congr fun handle _ => ?_
  cases handle with
  | none => rfl
  | some id =>
    by_cases first : id ∈ gone <;> by_cases second : id ∈ later <;> cases isList <;>
      simp [remains, first, second]

theorem reduceOption_spared (gone : List NodeId) (isList : Bool) (row : List Handle) :
    (spared gone isList row).reduceOption = row.reduceOption.filter (· ∉ gone) := by
  induction row with
  | nil => rfl
  | cons handle row ih =>
    rw [spared_cons, List.reduceOption_append, ih]
    cases handle with
    | none => rfl
    | some id => by_cases first : id ∈ gone <;> cases isList <;> simp [remains, first]

theorem mem_spared_iff : some id ∈ spared gone isList row ↔ some id ∈ row ∧ id ∉ gone := by
  rw [← List.reduceOption_mem_iff, reduceOption_spared, List.mem_filter, List.reduceOption_mem_iff,
    decide_eq_true_iff]

/-- What stands before and behind the only slot that holds a child. -/
theorem split_of_count_eq_one {position : Nat} (there : row[position]? = some (some id))
    (once : row.count (some id) = 1) :
    row = row.take position ++ some id :: row.drop (position + 1) ∧
      some id ∉ row.take position ∧ some id ∉ row.drop (position + 1) := by
  obtain ⟨inside, same⟩ := List.getElem?_eq_some_iff.mp there
  have split : row = row.take position ++ some id :: row.drop (position + 1) := by
    rw [← same, List.getElem_cons_drop, List.take_append_drop]
  rw [split, List.count_append, List.count_cons_self] at once
  exact ⟨split, List.count_eq_zero.mp (by omega), List.count_eq_zero.mp (by omega)⟩

/-- Taking one child out of the slot it is in. -/
theorem Node.clearSlot_spared {node : Node} {position : Nat}
    (there : node.slots[position]? = some (some id)) (once : node.slots.count (some id) = 1) :
    (node.clearSlot position).slots = spared [id] node.form.family?.isSome node.slots := by
  obtain ⟨inside, -⟩ := List.getElem?_eq_some_iff.mp there
  obtain ⟨split, before, behind⟩ := split_of_count_eq_one there once
  have left : spared [id] node.form.family?.isSome node.slots = node.slots.take position ++
      (if node.form.family?.isSome then [] else [none]) ++ node.slots.drop (position + 1) := by
    conv_lhs => rw [split]
    rw [spared_append, spared_cons, spared_of_not_mem before, spared_of_not_mem behind,
      List.append_assoc]
    simp [remains]
  rw [left]
  by_cases isList : node.form.family?.isSome
  · rw [Node.clearSlot_of_list isList, if_pos isList]
    simp [List.eraseIdx_eq_take_drop_succ]
  · rw [Node.clearSlot_of_fixed (by simpa using isList), if_neg isList]
    simp [List.set_eq_take_append_cons_drop, inside]

end Rows

namespace Tree

variable {tree before middle after : Tree} {gone later : List NodeId} {id : NodeId}

/-- Take a node out of the slot it is in, if it is in one. -/
def withdraw (tree : Tree) (id : NodeId) : Tree :=
  (tree.replaceChild (tree.parentOf (some id)) (some id) none).getD tree

/-- Some nodes have been taken out of the slots they were in. All else is in the place where
it was. -/
structure Pruned (before after : Tree) (gone : List NodeId) : Prop where
  owned : after.Owned
  size : after.size = before.size
  family? : ∀ id, after.family? (some id) = before.family? (some id)
  parentOf : ∀ id, after.parentOf (some id) =
    if id ∈ gone then none else before.parentOf (some id)
  slots : ∀ id, after.slots (some id) =
    spared gone (before.family? (some id)).isSome (before.slots (some id))

namespace Pruned

theorem refl (owned : tree.Owned) : Pruned tree tree [] where
  owned := owned
  size := rfl
  family? _ := rfl
  parentOf _ := rfl
  slots _ := (spared_of_free fun _ _ => List.not_mem_nil).symm

theorem trans (first : Pruned before middle gone) (second : Pruned middle after later) :
    Pruned before after (gone ++ later) where
  owned := second.owned
  size := second.size.trans first.size
  family? id := (second.family? id).trans (first.family? id)
  parentOf id := by
    rw [second.parentOf, first.parentOf]
    by_cases early : id ∈ gone <;> simp [early]
  slots id := by rw [second.slots, first.slots, first.family?, spared_spared]

theorem congr (pruned : Pruned before after gone) (same : ∀ id, id ∈ gone ↔ id ∈ later) :
    Pruned before after later where
  owned := pruned.owned
  size := pruned.size
  family? := pruned.family?
  parentOf id := by simp only [pruned.parentOf, same]
  slots id := (pruned.slots id).trans (spared_congr fun id _ => same id)

theorem children (pruned : Pruned before after gone) (id : NodeId) :
    after.children (some id) = (before.children (some id)).filter (· ∉ gone) := by
  rw [children_eq, children_eq, pruned.slots, reduceOption_spared]

end Pruned

/-- In a tree that is in order this is what happens to a child before it is moved. -/
theorem Owned.withdraw_eq (owned : tree.Owned) (id : NodeId) :
    tree.withdraw id = tree.detach (some id) := by
  unfold Tree.withdraw Tree.detach
  cases held : tree.parentOf (some id) with
  | none => rfl
  | some parent =>
    obtain ⟨node, found⟩ : ∃ node, tree.get? (some parent) = some node :=
      ⟨_, Array.getElem?_eq_getElem (owned.upTo.parent_lt held)⟩
    have member := owned.mem_slots_iff.mpr held
    rw [slots_of_get? found] at member
    obtain ⟨position, first, -⟩ := Node.slotOf?_eq_some member
    simp [Tree.replaceChild, found, first]

/-- A node that is withdrawn is gone from the slot it was in, and so from all slots. -/
theorem Owned.withdraw (owned : tree.Owned) (id : NodeId) :
    Pruned tree (tree.withdraw id) [id] := by
  have moved := owned.detach_moved id id
  rw [owned.withdraw_eq]
  refine ⟨moved.owned, moved.size, fun other => moved.family? other, fun other => ?_,
    fun other => ?_⟩
  · rw [owned.detach_parentOf]
    simp only [List.mem_singleton]
  · unfold Tree.detach
    cases held : tree.parentOf (some id) with
    | none =>
      refine (spared_of_not_mem fun member => ?_).symm
      rw [owned.mem_slots_iff, held] at member
      cases member
    | some parent =>
      obtain ⟨node, position, found, there, -, same⟩ := owned.upTo.removeChild held
      dsimp only
      rw [same, (Respanned.refreshIfList _ parent node).slots]
      by_cases own : other = parent
      · subst own
        have once := owned.held other id
        rw [if_pos held, slots_of_get? found] at once
        rw [unlink_slots_self found, slots_of_get? found, family?_of_get? found,
          Node.clearSlot_spared there once]
      · rw [unlink_slots_ne own, spared_of_not_mem]
        intro member
        rw [owned.mem_slots_iff, held] at member
        exact own (Option.some.inj member).symm

/-- So it is with a child before it is moved. -/
theorem Owned.detach_pruned (owned : tree.Owned) (id : NodeId) :
    Pruned tree (tree.detach (some id)) [id] :=
  owned.withdraw_eq id ▸ owned.withdraw id

/-- A node that has not had the child keeps its slots. -/
theorem Pruned.slots_elsewhere {other : NodeId} (pruned : Pruned before after [id])
    (owned : before.Owned) (elsewhere : before.parentOf (some id) ≠ some other) :
    after.slots (some other) = before.slots (some other) := by
  rw [pruned.slots, spared_of_not_mem (mt owned.mem_slots_iff.mp elsewhere)]

section Slots

variable {σ : Type} {visitor : Editor σ} {editing walked : Editing σ} {steps position : Nat}
  {child : Handle} {first left rest : List Handle}

theorem editFrom_eq (present : id < editing.tree.size) :
    editFrom visitor (steps + 1) id editing =
      (if (visitor.enter id editing).1 then
          editSlots visitor steps id 0 (visitor.enter id editing).2
        else some (visitor.enter id editing).2).map (visitor.leave id) := by
  have found : editing.tree.get? (some id) = some editing.tree.nodes[id] :=
    Array.getElem?_eq_getElem present
  rw [editFrom, found]
  rfl

theorem editSlots_done (all : (editing.tree.slots (some id)).length ≤ position) :
    editSlots visitor (steps + 1) id position editing = some editing := by
  rw [editSlots]
  exact if_pos all

/-- The walk over the slots goes on behind what is left of the child it has visited. -/
theorem editSlots_step
    (below : (match child with
      | none => some editing
      | some child => editFrom visitor steps child editing) = some walked)
    (slots : editing.tree.slots (some id) = first ++ child :: rest)
    (remain : walked.tree.slots (some id) = first ++ left ++ rest)
    (gap : left.length = 1 ∨ left = [] ∧ child ≠ none ∧ child ∉ rest) :
    editSlots visitor (steps + 1) id first.length editing =
      editSlots visitor steps id (first ++ left).length walked := by
  have inside : ¬ (editing.tree.slots (some id)).length ≤ first.length := by
    rw [slots]
    simp
  have here : editing.tree.slot (some id) first.length = child := by
    rw [slot_eq, slots]
    simp
  have next : (if walked.tree.advances id first.length
      (editing.tree.slots (some id)).length child then first.length + 1 else first.length) =
      (first ++ left).length := by
    unfold advances
    rw [slot_eq, slots, remain]
    rcases gap with one | ⟨rfl, present, missing⟩
    · simp [one]
    · have moved : (first ++ rest)[first.length]?.join ≠ child := by
        rw [List.getElem?_append_right (Nat.le_refl _), Nat.sub_self]
        cases rest with
        | nil => exact present.symm
        | cons other rest =>
          rintro rfl
          exact missing List.mem_cons_self
      simp [moved]
  rw [editSlots]
  simp only [if_neg inside, here]
  refine (congrArg (Option.bind · _) below).trans ?_
  simp only [Option.bind_some, next]

end Slots

end Tree

/-- An editor that keeps a record of what it meets and answers. Some nodes it withdraws when
it enters them, and some when it leaves them. -/
def Editor.pruning (descends early late : NodeId → Bool) : Editor (List Event) where
  enter id editing :=
    (descends id,
      { tree := if early id then editing.tree.withdraw id else editing.tree
        state := editing.state ++ [.enter id (descends id)] })
  leave id editing :=
    { tree := if late id then editing.tree.withdraw id else editing.tree
      state := editing.state ++ [.leave id] }

/-- A visitor whose answers depend on the node alone. -/
def Visitor.answering (descends : NodeId → Bool) : Visitor Unit where
  enter _ id _ := (descends id, ())

open Event

namespace Tree

/-- Two steps for each node that is entered and one for each of its slots. -/
def stepsFor (tree : Tree) (events : List Event) : Nat :=
  ((enteredIn events).map fun id => (tree.slots (some id)).length + 2).sum

section Pruning

variable {descends early late : NodeId → Bool} {tree before now middle after : Tree}
  {gone later : List NodeId} {row : List Handle} {inner events others : List Event} {id : NodeId}

theorem stepsFor_append (tree : Tree) (events others : List Event) :
    tree.stepsFor (events ++ others) = tree.stepsFor events + tree.stepsFor others := by
  rw [stepsFor, enteredIn_append, List.map_append, List.sum_append]
  rfl

theorem walkSteps_eq (tree : Tree) : tree.walkSteps =
    1 + ((List.range tree.size).map fun id => (tree.slots (some id)).length + 2).sum := by
  have sum (nodes : List Node) (first : Nat) :
      nodes.foldl (fun sum node => sum + node.slots.length + 2) first =
        first + (nodes.map fun node => node.slots.length + 2).sum := by
    induction nodes generalizing first with
    | nil => rfl
    | cons node nodes ih =>
      rw [List.foldl_cons, ih, List.map_cons, List.sum_cons]
      omega
  have each : (tree.nodes.toList.map fun node => node.slots.length + 2) =
      (List.range tree.size).map fun id => (tree.slots (some id)).length + 2 := by
    refine List.ext_getElem (by simp [size]) fun id inside _ => ?_
    have present : id < tree.nodes.size := by simpa using inside
    have found : tree.get? (some id) = some tree.nodes[id] := Array.getElem?_eq_getElem present
    simp [slots_of_get? found]
  rw [walkSteps, ← Array.foldl_toList, sum, each]

/-- The nodes of a tree are entered at most once each. -/
theorem stepsFor_lt_walkSteps (once : (enteredIn events).Nodup)
    (inside : ∀ id ∈ enteredIn events, id < tree.size) :
    tree.stepsFor events < tree.walkSteps := by
  obtain ⟨nodes, same, among⟩ := List.subperm_of_subset once fun id member =>
    List.mem_range.mpr (inside id member)
  let steps := fun id => (tree.slots (some id)).length + 2
  calc tree.stepsFor events = (nodes.map steps).sum := (same.map steps).sum_nat.symm
    _ ≤ ((List.range tree.size).map steps).sum :=
      (among.map steps).sum_le_sum fun _ _ => Nat.zero_le _
    _ < 1 + ((List.range tree.size).map steps).sum := by omega
    _ = tree.walkSteps := tree.walkSteps_eq.symm

theorem Pruned.withdraw (pruned : Pruned before now gone) (removes : NodeId → Bool) (id : NodeId) :
    Pruned before (if removes id then now.withdraw id else now) (gone ++ [id].filter removes) := by
  split
  · next chosen =>
    rw [List.filter_cons_of_pos chosen]
    exact pruned.trans (pruned.owned.withdraw id)
  · next kept =>
    rw [List.filter_cons_of_neg kept, List.filter_nil, List.append_nil]
    exact pruned

/-- One step over the slots of a node. The nodes in its other slots are still there, or gone,
as before. -/
theorem editSlots_pruned {σ : Type} {visitor : Editor σ} {walked : Editing σ} {steps : Nat}
    {passed : List Handle} (handle : Handle) (editing : Editing σ)
    (below : (match handle with
      | none => some editing
      | some child => editFrom visitor steps child editing) = some walked)
    (slots : before.slots (some id) = passed ++ handle :: row)
    (pruned : Pruned before editing.tree gone) (further : Pruned before walked.tree later)
    (others : ∀ other, some other ∈ passed ++ row → (other ∈ later ↔ other ∈ gone))
    (there : ∀ child, handle = some child → child ∉ gone) :
    editSlots visitor (steps + 1) id
        (spared gone (before.family? (some id)).isSome passed).length editing =
      editSlots visitor steps id
        (spared later (before.family? (some id)).isSome (passed ++ [handle])).length walked := by
  have aside : spared later (before.family? (some id)).isSome passed =
      spared gone (before.family? (some id)).isSome passed :=
    spared_congr fun other member => others other (List.mem_append_left _ member)
  have ahead : spared later (before.family? (some id)).isSome row =
      spared gone (before.family? (some id)).isSome row :=
    spared_congr fun other member => others other (List.mem_append_right _ member)
  have whole : remains gone (before.family? (some id)).isSome handle = [handle] := by
    cases handle with
    | none => rfl
    | some child => exact remains_kept (there child rfl)
  have held : editing.tree.slots (some id) =
      spared gone (before.family? (some id)).isSome passed ++
        handle :: spared gone (before.family? (some id)).isSome row := by
    rw [pruned.slots, slots, spared_append, spared_cons, whole, List.singleton_append]
  rw [spared_append, aside, spared_singleton]
  refine editSlots_step below held ?_ ?_
  · rw [further.slots, slots, spared_append, spared_cons, aside, ahead, List.append_assoc]
  · refine (remains_eq_nil_or_length ..).imp_right ?_
    rintro ⟨closed, child, member, rfl⟩
    refine ⟨closed, Option.some_ne_none child, fun again => there child rfl ?_⟩
    exact (others child (List.mem_append_right _ (mem_spared_iff.mp again).1)).mp member

/-- Whatever has been taken out before, a node that is still there is walked with these
events, and of the nodes that are entered those that are to go are gone afterwards. -/
def PrunesNode (before : Tree) (descends early late : NodeId → Bool) (id : NodeId)
    (events : List Event) : Prop :=
  ∀ (now : Tree) (gone : List NodeId) (seen : List Event), Pruned before now gone →
    (∀ low ∈ enteredIn events, low ∉ gone) →
    ∃ after, Pruned before after
        (gone ++ (enteredIn events).filter fun low => early low || late low) ∧
      ∀ steps ≥ before.stepsFor events,
        editFrom (.pruning descends early late) steps id ⟨now, seen⟩ =
          some ⟨after, seen ++ events⟩

/-- The same of the slots of a node that are behind those the walk has passed. -/
def PrunesRow (before : Tree) (descends early late : NodeId → Bool) (row : List Handle)
    (events : List Event) : Prop :=
  ∀ (id : NodeId) (passed : List Handle) (now : Tree) (gone : List NodeId) (seen : List Event),
    before.slots (some id) = passed ++ row → Pruned before now gone →
    (∀ low ∈ enteredIn events, low ∉ gone ∧ some low ∉ passed) →
    ∃ after, Pruned before after
        (gone ++ (enteredIn events).filter fun low => early low || late low) ∧
      ∀ steps ≥ row.length + 1 + before.stepsFor events,
        editSlots (.pruning descends early late) steps id
            (spared gone (before.family? (some id)).isSome passed).length ⟨now, seen⟩ =
          some ⟨after, seen ++ events⟩

theorem PrunesRow.done : PrunesRow before descends early late [] [] := by
  intro id passed now gone seen slots pruned _
  refine ⟨now, by simpa using pruned, fun steps enough => ?_⟩
  obtain ⟨steps, rfl⟩ := Nat.exists_eq_add_one.mpr (Nat.zero_lt_of_lt enough)
  rw [List.append_nil]
  refine editSlots_done ?_
  rw [pruned.slots, slots, List.append_nil]

theorem PrunesRow.absent (later : PrunesRow before descends early late row events) :
    PrunesRow before descends early late (none :: row) events := by
  intro id passed now gone seen slots pruned fresh
  obtain ⟨after, left, walked⟩ := later id (passed ++ [none]) now gone seen (by simp [slots]) pruned
    fun low member => ⟨(fresh low member).1, by simpa using (fresh low member).2⟩
  refine ⟨after, left, fun steps enough => ?_⟩
  rw [List.length_cons] at enough
  obtain ⟨steps, rfl⟩ := Nat.exists_eq_add_one.mpr (show 0 < steps by omega)
  rw [editSlots_pruned none ⟨now, seen⟩ rfl slots pruned pruned (fun _ _ => Iff.rfl) nofun]
  exact walked steps (by omega)

theorem PrunesRow.present (here : PrunesNode before descends early late id events)
    (later : PrunesRow before descends early late row others)
    (once : (enteredIn (events ++ others)).Nodup) (top : id ∈ enteredIn events)
    (tops : ∀ other, some other ∈ row → other ∈ enteredIn others) :
    PrunesRow before descends early late (some id :: row) (events ++ others) := by
  intro parent passed now gone seen slots pruned fresh
  rw [enteredIn_append] at once fresh
  have apart := List.disjoint_of_nodup_append once
  -- No node that is entered here is in a slot passed before or in one further on, so what the
  -- editor takes out by then leaves those slots alone.
  let cut := gone ++ (enteredIn events).filter fun low => early low || late low
  have untouched {low : NodeId} (outside : low ∉ enteredIn events) : low ∈ cut ↔ low ∈ gone := by
    simp [cut, outside]
  obtain ⟨middle, first, walked⟩ := here now gone seen pruned fun low member =>
    (fresh low (List.mem_append_left _ member)).1
  obtain ⟨after, left, finished⟩ := later parent (passed ++ [some id]) middle cut (seen ++ events)
      (by simp [slots]) first <| by
    intro low member
    obtain ⟨free, missing⟩ := fresh low (List.mem_append_right _ member)
    have outside : low ∉ enteredIn events := fun early => apart early member
    refine ⟨mt (untouched outside).mp free, ?_⟩
    rw [List.mem_append, List.mem_singleton]
    rintro (again | same)
    · exact missing again
    · exact outside (Option.some.inj same ▸ top)
  refine ⟨after, ?_, fun steps enough => ?_⟩
  · rwa [enteredIn_append, List.filter_append, ← List.append_assoc]
  rw [List.length_cons, stepsFor_append] at enough
  obtain ⟨steps, rfl⟩ := Nat.exists_eq_add_one.mpr (show 0 < steps by omega)
  rw [editSlots_pruned (some id) _ (walked steps (by omega)) slots pruned first,
    finished steps (by omega), List.append_assoc]
  · intro low member
    refine untouched fun early => ?_
    rcases List.mem_append.mp member with before | behind
    · exact (fresh low (List.mem_append_left _ early)).2 before
    · exact apart early (tops low behind)
  · rintro child same
    obtain rfl := Option.some.inj same
    exact (fresh id (List.mem_append_left _ top)).1

theorem PrunesNode.skip (present : id < before.size) (refused : descends id = false) :
    PrunesNode before descends early late id [.enter id false, .leave id] := by
  intro now gone seen pruned _
  refine ⟨_, ((pruned.withdraw early id).withdraw late id).congr fun low => ?_,
    fun steps enough => ?_⟩
  · by_cases same : low = id <;> simp [enteredIn, entered?, same]
  have positive : 0 < steps := Nat.lt_of_lt_of_le (by simp [stepsFor]) enough
  obtain ⟨steps, rfl⟩ := Nat.exists_eq_add_one.mpr positive
  rw [editFrom_eq (Nat.lt_of_lt_of_eq present pruned.size.symm)]
  simp [Editor.pruning, refused]

theorem PrunesNode.descend (present : id < before.size) (allowed : descends id = true)
    (once : (id :: enteredIn inner).Nodup)
    (below : PrunesRow before descends early late (before.slots (some id)) inner) :
    PrunesNode before descends early late id (.enter id true :: inner ++ [.leave id]) := by
  intro now gone seen pruned fresh
  have entered := pruned.withdraw early id
  rw [enteredIn_alone] at fresh
  obtain ⟨alone, -⟩ := List.nodup_cons.mp once
  obtain ⟨after, left, walked⟩ := below id [] _ _ (seen ++ [.enter id true]) rfl entered <| by
    intro low member
    have distinct : low ≠ id := fun same => alone (same ▸ member)
    have still : low ∉ gone := fresh low (List.mem_cons_of_mem id member)
    simp [still, distinct]
  refine ⟨_, (left.withdraw late id).congr fun low => ?_, fun steps enough => ?_⟩
  · rw [enteredIn_alone]
    by_cases same : low = id
    · subst same
      simp [alone]
    · simp [same]
  have total : before.stepsFor (.enter id true :: inner ++ [.leave id]) =
      (before.slots (some id)).length + 2 + before.stepsFor inner := by
    rw [stepsFor, enteredIn_alone, List.map_cons, List.sum_cons, stepsFor]
  obtain ⟨steps, rfl⟩ := Nat.exists_eq_add_one.mpr (show 0 < steps by omega)
  rw [editFrom_eq (Nat.lt_of_lt_of_eq present pruned.size.symm)]
  have inside := walked steps (by omega)
  rw [spared, List.flatMap_nil, List.length_nil] at inside
  have descent : (Editor.pruning descends early late).enter id ⟨now, seen⟩ =
      (true, ⟨if early id then now.withdraw id else now, seen ++ [.enter id true]⟩) := by
    simp only [Editor.pruning, allowed]
  rw [descent, if_pos rfl, inside]
  simp [Editor.pruning]

/-- A traversal of a row in which no node is entered twice. -/
theorem Traverses.prunesRow (traverses : before.Traverses row events)
    (once : (enteredIn events).Nodup)
    (answers : ∀ id answer, .enter id answer ∈ events → descends id = answer) :
    PrunesRow before descends early late row events := by
  induction traverses with
  | done => exact .done
  | absent later ih => exact (ih once answers).absent
  | @skip id row events present later ih =>
    have here : PrunesNode before descends early late id [.enter id false, .leave id] :=
      .skip present (answers id false List.mem_cons_self)
    have behind := ih (List.nodup_cons.mp once).2 fun low answer member =>
      answers low answer (List.mem_cons_of_mem _ (List.mem_cons_of_mem _ member))
    exact .present here behind once List.mem_cons_self fun other member =>
      later.mem_iff.mpr (.inl member)
  | @descend id row inner events present below later inside behind =>
    have split : Event.enter id true :: inner ++ .leave id :: events =
        (.enter id true :: inner ++ [.leave id]) ++ events := by simp
    rw [split] at once answers ⊢
    have distinct := once
    rw [enteredIn_append, enteredIn_alone, List.nodup_append] at distinct
    obtain ⟨first, second, -⟩ := distinct
    have here : PrunesNode before descends early late id (.enter id true :: inner ++ [.leave id]) :=
      .descend present (answers id true (by simp)) first
        (inside first.of_cons fun low answer member => answers low answer (by simp [member]))
    have behind := behind second fun low answer member => answers low answer (by simp [member])
    exact .present here behind once (by simp) fun other member =>
      later.mem_iff.mpr (.inl member)

theorem Traverses.prunesNode (traverses : before.Traverses [some id] events)
    (once : (enteredIn events).Nodup)
    (answers : ∀ id answer, .enter id answer ∈ events → descends id = answer) :
    PrunesNode before descends early late id events := by
  cases traverses with
  | skip present later =>
    cases later
    exact .skip present (answers id false List.mem_cons_self)
  | @descend _ _ inner _ present below later =>
    cases later
    have distinct : (id :: enteredIn inner).Nodup := enteredIn_alone id true inner ▸ once
    exact .descend present (answers id true (by simp)) distinct
      (below.prunesRow distinct.of_cons fun low answer member =>
        answers low answer (by simp [member]))

end Pruning

/-- An editor that withdraws some of the nodes it meets meets the same nodes, in the same
order, as a visitor of the tree as it was; for this it needs no more steps than if the slots
did not change. Afterwards the nodes that were met and chosen are in no slot, and all others
are in the slot they were in; where a list has lost some of its elements, those that are left
have kept their order. -/
theorem edit_pruning {tree : Tree} {root : NodeId} (owned : tree.Owned) (acyclic : tree.Acyclic)
    (present : root < tree.size) (descends early late : NodeId → Bool) :
    ∃ events after,
      tree.walk (some root) (Visitor.answering descends).recording ((), []) = ((), events) ∧
      (∀ steps ≥ tree.walkSteps,
        tree.edit (some root) (.pruning descends early late) [] steps = some ⟨after, events⟩) ∧
      Pruned tree after ((enteredIn events).filter fun id => early id || late id) ∧
      (∀ id parent, tree.parentOf (some id) = some parent →
        (after.parentOf (some id) = none ↔ id ∈ enteredIn events ∧ (early id ∨ late id))) ∧
      (∀ id, ¬ (id ∈ enteredIn events ∧ (early id ∨ late id)) →
        after.parentOf (some id) = tree.parentOf (some id)) ∧
      ∀ id, after.children (some id) = (tree.children (some id)).filter fun child =>
        ¬ (child ∈ enteredIn events ∧ (early child ∨ late child)) := by
  obtain ⟨events, traverses, meets, recorded⟩ :=
    walk_recording owned acyclic present (.answering descends) () []
  have once := traverses.once owned acyclic
  have node : PrunesNode tree descends early late root events :=
    traverses.prunesNode once fun id answer member => (meets.answered member).choose_spec
  obtain ⟨after, pruned, walked⟩ := node tree [] [] (.refl owned) fun _ _ => List.not_mem_nil
  rw [List.nil_append] at pruned
  have gone {id : NodeId} : id ∈ (enteredIn events).filter (fun id => early id || late id) ↔
      id ∈ enteredIn events ∧ (early id ∨ late id) := by
    simp
  refine ⟨events, after, recorded, fun steps enough => ?_, pruned, ?_, ?_, ?_⟩
  · have few := stepsFor_lt_walkSteps once fun id member => traverses.lt_size member
    exact walked steps (Nat.le_trans (Nat.le_of_lt few) enough)
  · intro id parent held
    rw [pruned.parentOf, held, ← gone]
    simp only [ite_eq_left_iff, reduceCtorEq, imp_false, not_not]
  · intro id kept
    rw [pruned.parentOf, if_neg (mt gone.mp kept)]
  · intro id
    rw [pruned.children]
    exact List.filter_congr fun child _ => by simp only [gone]

/-- Two neighbours in a list are withdrawn when they are entered, and the operand of the
element before them when it is left. -/
theorem edit_pruning_of_neighbours :
    let list := Operation.applyAll [.make (.lookup "a") .empty,
      .make (.unary (.punctuator .minus) (some 0) false) .empty, .make (.lookup "b") .empty,
      .make (.lookup "c") .empty, .make (.lookup "d") .empty,
      .make (.list .expressions [some 1, some 2, some 3, some 4]) .empty] {}
    let events : List Event := [.enter 5 true, .enter 1 true, .enter 0 true, .leave 0, .leave 1,
      .enter 2 true, .leave 2, .enter 3 true, .leave 3, .enter 4 true, .leave 4, .leave 5]
    let editor := Editor.pruning (fun _ => true) (fun id => id == 2 || id == 3) (fun id => id == 0)
    list.Owned ∧ list.Acyclic ∧ 5 < list.size ∧
      ∃ after, list.edit (some 5) editor [] list.walkSteps = some ⟨after, events⟩ ∧
        after.slots (some 5) = [some 1, some 4] ∧ after.slots (some 1) = [none] := by
  intro list events editor
  have reached : Reached (fun tree _ => tree.Shallow) list := .applyAll .empty (by decide)
  have owned := reached.owned
  have acyclic := reached.acyclic fun _ _ shallow => shallow
  have present : 5 < list.size := by decide
  have walked : list.walk (some 5) (Visitor.answering fun _ => true).recording ((), []) =
      ((), events) := by decide
  obtain ⟨met, after, recorded, edited, pruned, -⟩ :=
    edit_pruning owned acyclic present (fun _ => true) (fun id => id == 2 || id == 3)
      (fun id => id == 0)
  obtain ⟨-, rfl⟩ := Prod.mk.inj (recorded.symm.trans walked)
  refine ⟨owned, acyclic, present, after, edited _ (Nat.le_refl _), ?_, ?_⟩
  · rw [pruned.slots]
    decide
  · rw [pruned.slots]
    decide

end Tree

end ScriptSyntax
