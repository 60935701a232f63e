import ScriptSyntax.Proofs.Tree.Insertion

/-! What joining two expressions by a comma does to a tree in order, as a whole: one comma
node has the operands of both in its list. It is the left one or new; a comma node on the
right is left without operands and belongs to nobody. -/
namespace ScriptSyntax.Tree

variable {tree before middle after : Tree} {left right result list : NodeId}

/-- The operands that a node brings to a comma expression: those in its list if it is a
comma node, and else itself. -/
def operands (tree : Tree) (id : NodeId) : List Handle :=
  match tree.commaList? (some id) with
  | some list => tree.elements list
  | none => [some id]

/-- A node that becomes an operand itself, and for that leaves its place. -/
def ownOperand (tree : Tree) (id : NodeId) : List NodeId :=
  if (tree.commaList? (some id)).isSome then [] else [id]

/-- Every comma node among these has a list of expressions. -/
def CommasHoldExpressions (tree : Tree) (nodes : List NodeId) : Prop :=
  ∀ id ∈ nodes, ∀ inner, tree.commaList? (some id) = some inner →
    tree.family? inner = some .expressions

theorem family?_eq_form? (tree : Tree) (handle : Handle) :
    tree.family? handle = (tree.form? handle).bind Form.family? := by
  rw [family?, form?, Option.bind_map]
  rfl

theorem KeepsForms.family? (forms : KeepsForms before after) (handle : Handle) :
    after.family? handle = before.family? handle := by
  rw [family?_eq_form?, forms.form?, ← family?_eq_form?]

theorem commaList?_congr {handle : Handle} (form : after.form? handle = before.form? handle)
    (slots : after.slots handle = before.slots handle) :
    after.commaList? handle = before.commaList? handle := by
  have same : after.slot handle 0 = before.slot handle 0 := by
    cases handle with
    | none => rfl
    | some id => rw [slot_eq, slot_eq, slots]
  rw [commaList?, commaList?, form, same]

/-- The list of a comma node is a child of it, and the node is no list. -/
theorem Owned.commaList?_child (owned : tree.Owned) {id : NodeId} {inner : Handle}
    (listed : tree.commaList? (some id) = some inner)
    (family : tree.family? inner = some .expressions) :
    ∃ list, inner = some list ∧ tree.parentOf (some list) = some id ∧
      tree.operands id = tree.slots (some list) := by
  obtain ⟨list, rfl⟩ : ∃ list, inner = some list := by
    cases inner with
    | none => cases family
    | some list => exact ⟨list, rfl⟩
  refine ⟨list, rfl, owned.parentOf_slot (commaList?_slot listed).symm, ?_⟩
  rw [operands, listed]
  exact elements_eq (Option.isSome_of_eq_some family)

theorem family?_of_commaList? {handle inner : Handle}
    (listed : tree.commaList? handle = some inner) : tree.family? handle = none := by
  unfold commaList? at listed
  split at listed
  · next comma =>
    rw [family?_eq_form?, comma]
    rfl
  · cases listed

theorem Owned.operands_lt (owned : tree.Owned) (present : left < tree.size) {id : NodeId}
    (member : some id ∈ tree.operands left) : id < tree.size := by
  unfold operands at member
  split at member
  · next inner listed =>
    unfold elements at member
    split at member
    · next isList =>
      cases inner with
      | none => cases isList
      | some list => exact child_lt (owned.mem_slots_iff.mp member)
    · cases member
  · exact Option.some.inj (List.mem_singleton.mp member) ▸ present

theorem operands_of_not_comma {id : NodeId} (single : tree.commaList? (some id) = none) :
    tree.operands id = [some id] := by
  rw [operands, single]

/-- The left expression is a comma node with this list, or has become the only operand of a
new one. -/
structure Opened (before after : Tree) (left result list : NodeId) : Prop where
  owned : after.Owned
  acyclic : after.Acyclic
  size : before.size ≤ after.size
  forms : ∀ id < before.size, after.form? (some id) = before.form? (some id)
  parentOf : ∀ id < before.size, after.parentOf (some id) =
    if id ∈ before.ownOperand left then some list else before.parentOf (some id)
  slots : ∀ id < before.size, after.slots (some id) =
    spared (before.ownOperand left) (before.family? (some id)).isSome (before.slots (some id))
  listed : after.commaList? (some result) = some (some list)
  family : after.family? (some list) = some .expressions
  row : after.slots (some list) = before.operands left
  shallow : after.ShallowAt list
  upward : ∀ id, after.Upward list id → id = list ∨ id = result ∨ before.Above id left
  old : (before.commaList? (some left)).isSome → after = before ∧ result = left
  new : before.commaList? (some left) = none → before.size ≤ result ∧ before.size ≤ list

/-- A new list of one node that it does not flatten. -/
theorem Owned.listAround {family : ListFamily} (owned : tree.Owned) (acyclic : tree.Acyclic)
    (present : left < tree.size) (single : tree.family? (some left) ≠ some family)
    (span : Span) :
    Inserted (tree.push (.emptyList family span))
        (tree.addList family span [some left]).tree tree.size 0 left ∧
      (tree.addList family span [some left]).tree.Acyclic := by
  let pushed := tree.push (.emptyList family span)
  have still : pushed.Owned := owned.push_empty rfl rfl
  have links (id : NodeId) : pushed.parentOf (some id) = tree.parentOf (some id) :=
    parentOf_push rfl tree id
  have root : pushed.parentOf (some tree.size) = none :=
    (links _).trans (parentOf_outside (Nat.le_refl _))
  have circleless : pushed.Acyclic := fun id circle =>
    acyclic id (circle.mono fun id parent linked => links id ▸ linked)
  have listed : pushed.family? (some tree.size) = some family := by
    rw [family?_push, if_pos rfl]
    rfl
  have empty : pushed.elements (some tree.size) = [] := by
    rw [elements_eq (Option.isSome_of_eq_some listed), slots_push, if_pos rfl]
    rfl
  have outside : ¬ pushed.Upward tree.size left := by
    rintro (same | higher)
    · exact Nat.ne_of_lt present same
    · exact not_above_of_root root higher
  have shallow : pushed.ShallowAt tree.size := shallowAt_of_root fun parent linked => by
    rw [root] at linked
    cases linked
  obtain ⟨filled, result, moves, -, puts⟩ := still.insert_placed circleless shallow listed
    (Nat.lt_of_lt_of_eq (Nat.lt_succ_of_lt present) (size_push ..).symm) outside (· + 1) 0
  have appended : pushed.append (some tree.size) (some left) = some filled := by
    rw [append, empty]
    exact result
  have same : (tree.addList family span [some left]).tree = filled := by
    change (pushed.append (some tree.size) (some left)).getD pushed = filled
    rw [appended]
    rfl
  rw [same]
  refine ⟨puts ?_, (moves.acyclic circleless shallow).1⟩
  rwa [family?_push, if_neg (Nat.ne_of_lt present)]

/-- A new comma node around the left expression. -/
theorem Owned.addComma_opened (owned : tree.Owned) (acyclic : tree.Acyclic)
    (present : left < tree.size) (single : tree.family? (some left) = none)
    (absent : tree.commaList? (some left) = none) (span : Span) :
    Opened tree (tree.addComma span [some left]).tree left
      (tree.addComma span [some left]).id tree.size := by
  let pushed := tree.push (.emptyList .expressions span.atStart)
  let filled := (tree.addList .expressions span.atStart [some left]).tree
  obtain ⟨put, circleless⟩ : Inserted pushed filled tree.size 0 left ∧ filled.Acyclic :=
    owned.listAround acyclic present (by rw [single]; nofun) span.atStart
  have size : filled.size = tree.size + 1 := put.size.trans (size_push ..)
  have inside : tree.size < filled.size := Nat.lt_of_lt_of_eq (Nat.lt_succ_self _) size.symm
  have root : filled.parentOf (some tree.size) = none := by
    rw [put.parentOf, if_neg (Nat.ne_of_gt present), parentOf_push rfl,
      parentOf_outside (Nat.le_refl _)]
  have admits : Form.comma.Admits [some tree.size] := fun _ => rfl
  obtain ⟨length, parents, families, forms, slots⟩ := add_around .comma root inside span admits
  have building : Building filled (filled.add .comma [some tree.size] span admits).tree
      [some tree.size] 1 := put.owned.add rfl (by simpa using inside) span admits
  change Opened tree (filled.add .comma [some tree.size] span admits).tree left filled.size
    tree.size
  have own : tree.ownOperand left = [left] := if_neg (by simp [absent])
  have top : (filled.add .comma [some tree.size] span admits).tree.parentOf (some filled.size) =
      none := by
    rw [parents, if_neg (Nat.ne_of_gt inside), parentOf_outside (Nat.le_refl _)]
  have linked : (filled.add .comma [some tree.size] span admits).tree.parentOf (some tree.size) =
      some filled.size := by
    rw [parents, if_pos rfl]
  have apart {id : NodeId} (old : id < tree.size) : id ≠ tree.size ∧ id ≠ filled.size :=
    ⟨Nat.ne_of_lt old, Nat.ne_of_lt (Nat.lt_trans old inside)⟩
  refine ⟨building.complete, building.acyclic circleless, ?_, fun id old => ?_, fun id old => ?_,
    fun id old => ?_, ?_, ?_, ?_, ?_, ?_, fun here => ?_, fun _ => ⟨?_, Nat.le_refl _⟩⟩
  · rw [length, size]
    omega
  · rw [forms, if_neg (apart old).2, put.forms.form?, form?_push, if_neg (apart old).1]
  · rw [parents, if_neg (apart old).1, put.parentOf, parentOf_push rfl, own]
    simp only [List.mem_singleton]
  · rw [slots, if_neg (apart old).2, put.others id (apart old).1, family?_push, slots_push,
      if_neg (apart old).1, if_neg (apart old).1, own]
  · rw [commaList?, forms, if_pos rfl, if_pos rfl, slot_eq, slots, if_pos rfl]
    rfl
  · rw [families, if_neg (Nat.ne_of_lt inside), put.forms.family?, family?_push, if_pos rfl]
    rfl
  · rw [slots, if_neg (Nat.ne_of_lt inside), put.row, slots_push, if_pos rfl,
      operands_of_not_comma absent]
    rfl
  · refine shallowAt_of_root fun parent held => ?_
    obtain rfl := Option.some.inj (linked.symm.trans held)
    exact top
  · rintro id (same | higher)
    · exact .inl same
    · obtain ⟨parent, held, further⟩ := higher.cases
      obtain rfl := Option.some.inj (linked.symm.trans held)
      rcases further with same | further
      · exact .inr (.inl same)
      · obtain ⟨next, beyond, -⟩ := further.cases
        rw [top] at beyond
        cases beyond
  · rw [absent] at here
    cases here
  · exact Nat.le_of_lt inside

/-- The comma node to go on from. -/
theorem Owned.commaAround_opened (owned : tree.Owned) (acyclic : tree.Acyclic)
    (shallow : tree.Shallow) (present : left < tree.size)
    (single : tree.family? (some left) = none) (holds : tree.CommasHoldExpressions [left])
    (span : Span) : ∃ list, Opened tree (tree.commaAround left span).tree left
      (tree.commaAround left span).id list := by
  unfold Tree.commaAround
  split
  · next comma =>
    obtain ⟨inner, listed⟩ := Option.isSome_iff_exists.mp comma
    have family := holds left (List.mem_singleton_self left) inner listed
    obtain ⟨list, rfl, held, row⟩ := owned.commaList?_child listed family
    have none : tree.ownOperand left = [] := if_pos comma
    refine ⟨list, owned, acyclic, Nat.le_refl _, fun _ _ => rfl, fun id _ => ?_, fun id _ => ?_,
      listed, family, row.symm, shallow list, ?_, fun _ => ⟨rfl, rfl⟩, fun absent => ?_⟩
    · rw [none, if_neg List.not_mem_nil]
    · rw [none, spared_of_free fun _ _ => List.not_mem_nil]
    · rintro id (same | higher)
      · exact .inl same
      · obtain ⟨parent, linked, further⟩ := higher.cases
        obtain rfl := Option.some.inj (held.symm.trans linked)
        exact .inr further
    · rw [listed] at absent
      cases absent
  · next fresh =>
    exact ⟨_, owned.addComma_opened acyclic present single
      (Option.not_isSome_iff_eq_none.mp fresh) _⟩

/-- The list of a comma node has got the operands of another expression behind its own. -/
structure Extended (before after : Tree) (right list : NodeId) : Prop where
  owned : after.Owned
  acyclic : after.Acyclic
  size : after.size = before.size
  forms : KeepsForms before after
  parentOf : ∀ id, after.parentOf (some id) =
    if some id ∈ before.operands right then some list
    else if id = right then none else before.parentOf (some id)
  row : after.slots (some list) = before.slots (some list) ++ before.operands right
  emptied : ∀ inner, before.commaList? (some right) = some inner →
    after.slots inner = [] ∧ after.parentOf (some right) = none
  others : ∀ id ≠ list, before.commaList? (some right) ≠ some (some id) →
    after.slots (some id) =
      spared [right] (before.family? (some id)).isSome (before.slots (some id))

section Extending

variable (owned : tree.Owned) (acyclic : tree.Acyclic) (shallow : tree.ShallowAt list)
  (family : tree.family? (some list) = some .expressions) (present : right < tree.size)
  (outside : ¬ tree.Upward list right) (apart : tree.parentOf (some right) ≠ some list)

include owned acyclic shallow family present outside apart

/-- An expression that is no comma node becomes an operand. -/
theorem Owned.extend_single (single : tree.family? (some right) = none)
    (absent : tree.commaList? (some right) = none) :
    ∃ after, tree.append (some list) (some right) = some after ∧
      Extended tree after right list := by
  obtain ⟨after, result, moves, -, puts⟩ := owned.insert_placed acyclic shallow family present
    outside (· + 1) (tree.slots (some list)).length
  have put := puts (by rw [single]; nofun)
  refine ⟨after, by rwa [append, elements_eq (Option.isSome_of_eq_some family)], put.owned,
    (moves.acyclic acyclic shallow).1, put.size, put.forms, fun id => ?_, ?_, ?_, ?_⟩
  · rw [put.parentOf, operands_of_not_comma absent]
    by_cases same : id = right <;> simp [same]
  · rw [put.row, insertedRow_of_not_mem (mt owned.mem_slots_iff.mp apart),
      operands_of_not_comma absent, List.take_length, List.drop_length]
  · intro inner listed
    rw [absent] at listed
    cases listed
  · exact fun id other _ => put.others id other

omit present in
/-- A comma node hands over its operands and is detached. -/
theorem Owned.extend_comma {inner : Handle} (listed : tree.commaList? (some right) = some inner)
    (alike : tree.family? inner = some .expressions) :
    ∃ joined, tree.append (some list) inner = some joined ∧
      Extended tree (joined.detach (some right)) right list := by
  obtain ⟨source, rfl, held, row⟩ := owned.commaList?_child listed alike
  have beyond : ¬ tree.Upward list source := by
    rintro (rfl | higher)
    · exact outside (.inr (.of_parent held))
    · exact outside (.inr (higher.tail held))
  obtain ⟨joined, result, moves, inlines, -⟩ := owned.insert_placed acyclic shallow family
    (child_lt held) beyond (· + 1) (tree.slots (some list)).length
  have inlined := inlines alike
  have pruned := inlined.owned.detach_pruned right
  have away : tree.parentOf (some right) ≠ some source := fun back =>
    acyclic right ((Above.of_parent held).lift back)
  have parent : joined.parentOf (some right) = tree.parentOf (some right) := by
    rw [inlined.parentOf, if_neg away]
  refine ⟨joined, by rwa [append, elements_eq (Option.isSome_of_eq_some family)], pruned.owned,
    ?_, pruned.size.trans inlined.size, inlined.forms.trans (.detach ..), fun id => ?_, ?_, ?_,
    fun id other elsewhere => ?_⟩
  · have detached : Moves list joined (joined.detach (some right)) :=
      (inlined.owned.detach_moved right list).moves
    exact (detached.acyclic (moves.acyclic acyclic shallow).1 (moves.shallowAt shallow)).1
  · rw [pruned.parentOf, inlined.parentOf, row]
    simp only [owned.mem_slots_iff, List.mem_singleton]
    by_cases same : id = right
    · simp [same, away]
    · simp [same]
  · rw [pruned.slots_elsewhere inlined.owned (by rwa [parent]), inlined.row, inlinedRow_succ,
      row, List.take_length, List.drop_length, List.append_nil]
  · intro other same
    obtain rfl := Option.some.inj (listed.symm.trans same)
    rw [pruned.slots, inlined.emptied, pruned.parentOf, if_pos (List.mem_singleton_self right)]
    exact ⟨rfl, rfl⟩
  · have distinct : id ≠ source := fun same => elsewhere (same ▸ listed)
    rw [pruned.slots, inlined.others id other distinct, inlined.forms.family?]

end Extending

/-- Two expressions have become one: the comma node `result` has the operands of both in its
list. -/
structure Joined (before after : Tree) (left right result list : NodeId) : Prop where
  owned : after.Owned
  acyclic : after.Acyclic
  size : before.size ≤ after.size
  forms : ∀ id < before.size, after.form? (some id) = before.form? (some id)
  listed : after.commaList? (some result) = some (some list)
  family : after.family? (some list) = some .expressions
  row : after.elements (some list) = before.operands left ++ before.operands right
  parentOf : ∀ id < before.size, after.parentOf (some id) =
    if some id ∈ before.operands left ++ before.operands right then some list
    else if id = right then none else before.parentOf (some id)
  emptied : ∀ inner, before.commaList? (some right) = some inner →
    after.elements inner = [] ∧ after.parentOf (some right) = none
  others : ∀ id < before.size, id ≠ list → before.commaList? (some right) ≠ some (some id) →
    after.slots (some id) = spared (before.ownOperand left ++ [right])
      (before.family? (some id)).isSome (before.slots (some id))
  old : (before.commaList? (some left)).isSome → result = left
  new : before.commaList? (some left) = none → before.size ≤ result ∧ before.size ≤ list

/-- What joining two expressions comes to when the addition is let in. -/
theorem combineWithComma_eq {node : Node} {sequence : Built} {right inner : Handle}
    {joined : Tree} (found : tree.get? (some left) = some node)
    (opens : tree.commaAround left node.span = sequence)
    (known : (sequence.tree.get? right).isSome)
    (listed : sequence.tree.commaList? (some sequence.id) = some inner)
    (appended : sequence.tree.append inner ((sequence.tree.commaList? right).getD right) =
      some joined) :
    tree.combineWithComma (some left) right =
      (if (sequence.tree.commaList? right).getD right = right then joined
        else joined.detach right, some sequence.id) := by
  have given : (sequence.tree.get? right).isNone = false := by simpa using known
  unfold combineWithComma
  simp only [found, opens, given, Bool.false_eq_true, if_false, listed, appended]
  by_cases whole : (sequence.tree.commaList? right).getD right = right <;>
    cases held : joined.parentOf right <;> simp [Tree.detach, held, whole]

theorem mem_ownOperand {id : NodeId} (member : id ∈ tree.ownOperand left) :
    id = left ∧ tree.commaList? (some left) = none := by
  unfold ownOperand at member
  split at member
  · cases member
  · next absent =>
    exact ⟨List.mem_singleton.mp member, Option.not_isSome_iff_eq_none.mp absent⟩

namespace Opened

variable (opened : Opened before middle left result list) (owned : before.Owned)
  (present : right < before.size)

include opened owned

/-- A node that is not the parent of the left expression keeps its slots. -/
theorem slots_elsewhere {id : NodeId} (inside : id < before.size)
    (elsewhere : before.parentOf (some left) ≠ some id) :
    middle.slots (some id) = before.slots (some id) := by
  rw [opened.slots id inside]
  refine spared_of_free fun child member own => elsewhere ?_
  rw [← (mem_ownOperand own).1]
  exact owned.mem_slots_iff.mp member

include present

/-- Opening a comma node on the left does not change what the right expression brings. -/
theorem right_kept (apart : ¬ before.Above right left)
    (holds : before.CommasHoldExpressions [right]) :
    middle.commaList? (some right) = before.commaList? (some right) ∧
      middle.operands right = before.operands right ∧
      middle.CommasHoldExpressions [right] := by
  have here := opened.slots_elsewhere owned present fun held => apart (.of_parent held)
  have same := commaList?_congr (opened.forms right present) here
  rcases absent : before.commaList? (some right) with _ | inner
  · rw [absent] at same
    refine ⟨same, ?_, ?_⟩
    · rw [operands_of_not_comma same, operands_of_not_comma absent]
    · intro id member inner listed
      obtain rfl := List.mem_singleton.mp member
      rw [same] at listed
      cases listed
  · have alike := holds right (List.mem_singleton_self right) inner absent
    obtain ⟨source, rfl, held, row⟩ := owned.commaList?_child absent alike
    have inside := child_lt held
    have family : middle.family? (some source) = some .expressions := by
      rw [family?_eq_form?, opened.forms source inside, ← family?_eq_form?, alike]
    have kept : middle.slots (some source) = before.slots (some source) :=
      opened.slots_elsewhere owned inside fun under => apart ((Above.of_parent held).lift under)
    rw [absent] at same
    refine ⟨same, ?_, ?_⟩
    · obtain ⟨list, here, -, rest⟩ := opened.owned.commaList?_child same family
      obtain rfl := Option.some.inj here
      rw [rest, row, kept]
    · intro id member inner listed
      obtain rfl := List.mem_singleton.mp member
      obtain rfl := Option.some.inj (same.symm.trans listed)
      exact family

omit owned in
/-- The right expression neither is the list of the comma node nor above it. -/
theorem not_upward (distinct : left ≠ right) (apart : ¬ before.Above right left)
    (single : before.family? (some right) = none) : ¬ middle.Upward list right := by
  intro upward
  rcases opened.upward right upward with rfl | rfl | higher
  · have family := opened.family
    rw [family?_eq_form?, opened.forms _ present, ← family?_eq_form?, single] at family
    cases family
  · rcases absent : before.commaList? (some left) with _ | inner
    · exact absurd present (Nat.not_lt.mpr (opened.new absent).1)
    · exact distinct (opened.old (by rw [absent]; rfl)).2.symm
  · exact apart higher

/-- Nor is it below the comma node. -/
theorem right_elsewhere (distinct : left ≠ right) (apart : ¬ before.Above left right) :
    middle.parentOf (some right) = before.parentOf (some right) ∧
      before.parentOf (some right) ≠ some list ∧ before.parentOf (some right) ≠ some result := by
  refine ⟨?_, fun held => ?_, fun held => ?_⟩
  · rw [opened.parentOf right present, if_neg fun own => distinct (mem_ownOperand own).1.symm]
  · rcases absent : before.commaList? (some left) with _ | inner
    · exact absurd (owned.parent_lt held) (Nat.not_lt.mpr (opened.new absent).2)
    · obtain ⟨rfl, rfl⟩ := opened.old (by rw [absent]; rfl)
      have top := owned.parentOf_slot (commaList?_slot opened.listed).symm
      exact apart ((Above.of_parent top).lift held)
  · rcases absent : before.commaList? (some left) with _ | inner
    · exact absurd (owned.parent_lt held) (Nat.not_lt.mpr (opened.new absent).1)
    · obtain ⟨rfl, rfl⟩ := opened.old (by rw [absent]; rfl)
      exact apart (.of_parent held)

omit owned present in
/-- The operands on the left are the nodes whose parent the list is. -/
theorem mem_operands_left {id : NodeId} :
    some id ∈ before.operands left ↔ middle.parentOf (some id) = some list := by
  rw [← opened.row, opened.owned.mem_slots_iff]

/-- Both steps together. -/
theorem joined (distinct : left ≠ right)
    (apart : ¬ before.Above left right ∧ ¬ before.Above right left)
    (holds : before.CommasHoldExpressions [right])
    (extended : Extended middle after right list) :
    Joined before after left right result list := by
  obtain ⟨comma, operands, alike⟩ := opened.right_kept owned present apart.2 holds
  obtain ⟨stays, offList, offResult⟩ := opened.right_elsewhere owned present distinct apart.1
  have fixed := family?_of_commaList? opened.listed
  have other : result ≠ list := by
    rintro rfl
    rw [opened.family] at fixed
    cases fixed
  have row : after.slots (some result) = middle.slots (some result) := by
    rw [extended.others result other, spared_of_not_mem]
    · rwa [opened.owned.mem_slots_iff, stays]
    · intro listed
      rw [alike right (List.mem_singleton_self right) _ listed] at fixed
      cases fixed
  have family : after.family? (some list) = some .expressions := by
    rw [extended.forms.family?, opened.family]
  refine ⟨extended.owned, extended.acyclic, extended.size ▸ opened.size, fun id inside => ?_, ?_,
    family, ?_, fun id inside => ?_, ?_, fun id inside away elsewhere => ?_,
    fun here => (opened.old here).2, opened.new⟩
  · rw [extended.forms.form?, opened.forms id inside]
  · rw [commaList?_congr (extended.forms.form? _) row, opened.listed]
  · rw [elements_eq (Option.isSome_of_eq_some family), extended.row, opened.row, operands]
  · rw [extended.parentOf, operands]
    by_cases theirs : some id ∈ before.operands right
    · simp [theirs]
    by_cases same : id = right
    · have ours : some id ∉ before.operands left := by
        rw [opened.mem_operands_left, same, stays]
        exact offList
      subst same
      simp [theirs, ours]
    by_cases ours : some id ∈ before.operands left
    · simp [theirs, same, ours, opened.mem_operands_left.mp ours]
    · have unmoved : id ∉ before.ownOperand left := by
        intro own
        obtain ⟨rfl, absent⟩ := mem_ownOperand own
        exact ours (operands_of_not_comma absent ▸ List.mem_singleton_self _)
      simp [theirs, same, ours, opened.parentOf id inside, unmoved]
  · intro inner listed
    obtain ⟨empty, free⟩ := extended.emptied inner (comma.trans listed)
    refine ⟨?_, free⟩
    rw [elements, empty]
    split <;> rfl
  · rw [extended.others id away (by rwa [comma]), opened.slots id inside, family?_eq_form?,
      opened.forms id inside, ← family?_eq_form?, spared_spared]

end Opened

/-- Where no node has more nodes above it than are followed, two expressions of which neither
is above the other are joined to one: the left one if it is a comma node, else a new comma
node. Its operands are those of the left expression and then those of the right one. What is no
comma node leaves its place to become an operand; a comma node on the right stays without
operands and leaves its place too. -/
theorem combineWithComma_contract (owned : tree.Owned) (acyclic : tree.Acyclic)
    (shallow : tree.Shallow) (present : left < tree.size ∧ right < tree.size)
    (single : tree.family? (some left) = none ∧ tree.family? (some right) = none)
    (distinct : left ≠ right) (apart : ¬ tree.Above left right ∧ ¬ tree.Above right left)
    (holds : tree.CommasHoldExpressions [left, right]) :
    ∃ after result list, tree.combineWithComma (some left) (some right) = (after, some result) ∧
      Joined tree after left right result list ∧
      (∀ id, some id ∈ tree.operands left ++ tree.operands right →
        after.parentOf (some id) = some list) ∧
      (∀ id ∈ [left, right], tree.commaList? (some id) = none →
        ∀ former, tree.parentOf (some id) = some former → some id ∉ after.slots (some former)) ∧
      ∀ inner, tree.commaList? (some right) = some inner →
        after.elements inner = [] ∧ after.parentOf (some right) = none ∧
          ∀ former, some right ∉ after.slots (some former) := by
  have holdsLeft : tree.CommasHoldExpressions [left] := fun id member =>
    holds id (List.mem_cons.mpr (.inl (List.mem_singleton.mp member)))
  have holdsRight : tree.CommasHoldExpressions [right] := fun id member =>
    holds id (List.mem_cons_of_mem _ member)
  obtain ⟨node, found⟩ : ∃ node, tree.get? (some left) = some node :=
    ⟨_, Array.getElem?_eq_getElem present.1⟩
  obtain ⟨list, opened⟩ :=
    owned.commaAround_opened acyclic shallow present.1 single.1 holdsLeft node.span
  generalize opens : tree.commaAround left node.span = sequence at opened
  have inside : right < sequence.tree.size := Nat.lt_of_lt_of_le present.2 opened.size
  obtain ⟨comma, -, alike⟩ := opened.right_kept owned present.2 apart.2 holdsRight
  obtain ⟨stays, offList, -⟩ := opened.right_elsewhere owned present.2 distinct apart.1
  have outside := opened.not_upward present.2 distinct apart.2 single.2
  have known : (sequence.tree.get? (some right)).isSome := by
    rw [show sequence.tree.get? (some right) = some sequence.tree.nodes[right] from
      Array.getElem?_eq_getElem inside]
    rfl
  obtain ⟨after, result, extended⟩ : ∃ after,
      tree.combineWithComma (some left) (some right) = (after, some sequence.id) ∧
        Extended sequence.tree after right list := by
    rcases absent : sequence.tree.commaList? (some right) with _ | inner
    · obtain ⟨after, appended, extended⟩ := opened.owned.extend_single opened.acyclic
        opened.shallow opened.family inside outside (by rwa [stays])
        (by rw [family?_eq_form?, opened.forms right present.2, ← family?_eq_form?, single.2])
        absent
      refine ⟨after, ?_, extended⟩
      rw [combineWithComma_eq found opens known opened.listed (by rw [absent]; exact appended),
        absent]
      simp
    · obtain ⟨joined, appended, extended⟩ := opened.owned.extend_comma opened.acyclic
        opened.shallow opened.family outside (by rwa [stays]) absent
        (alike right (List.mem_singleton_self right) inner absent)
      refine ⟨_, ?_, extended⟩
      have other : inner ≠ some right := by
        rintro rfl
        have held := opened.owned.parentOf_slot (commaList?_slot absent).symm
        exact opened.acyclic right (.of_parent held)
      rw [combineWithComma_eq found opens known opened.listed (by rw [absent]; exact appended),
        absent]
      simp [other]
  have joined := opened.joined owned present.2 distinct apart holdsRight extended
  have linked : ∀ id, some id ∈ tree.operands left ++ tree.operands right →
      after.parentOf (some id) = some list := by
    intro id member
    have old : id < tree.size := by
      rcases List.mem_append.mp member with first | second
      · exact owned.operands_lt present.1 first
      · exact owned.operands_lt present.2 second
    rw [joined.parentOf id old, if_pos member]
  refine ⟨after, sequence.id, list, result, joined, linked, ?_, fun inner listed => ?_⟩
  · intro id member absent former held again
    have operand : some id ∈ tree.operands left ++ tree.operands right := by
      rcases List.mem_pair.mp member with rfl | rfl <;> simp [operands_of_not_comma absent]
    have same := (joined.owned.mem_slots_iff.mp again).symm.trans (linked id operand)
    rw [Option.some.inj same] at held
    rcases List.mem_pair.mp member with rfl | rfl
    · exact absurd (owned.parent_lt held) (Nat.not_lt.mpr (opened.new absent).2)
    · exact offList held
  · obtain ⟨empty, free⟩ := joined.emptied inner listed
    refine ⟨empty, free, fun former again => ?_⟩
    rw [joined.owned.mem_slots_iff, free] at again
    cases again

/-- A name is joined to the comma node that stands behind it in a list. -/
theorem combineWithComma_contract_of_neighbours :
    let row := Operation.applyAll [.make (.lookup "a") .empty, .make (.lookup "b") .empty,
      .make (.lookup "c") .empty, .make (.comma [some 1, some 2]) .empty,
      .make (.list .expressions [some 0, some 4]) .empty] {}
    (row.Owned ∧ row.Acyclic ∧ row.Shallow ∧ (0 < row.size ∧ 4 < row.size) ∧
      (row.family? (some 0) = none ∧ row.family? (some 4) = none) ∧ (0 : NodeId) ≠ 4 ∧
      (¬ row.Above 0 4 ∧ ¬ row.Above 4 0) ∧ row.CommasHoldExpressions [0, 4]) ∧
      ∃ after result list, row.combineWithComma (some 0) (some 4) = (after, some result) ∧
        row.size ≤ result ∧ after.commaList? (some result) = some (some list) ∧
        after.elements (some list) = [some 0, some 1, some 2] ∧
        after.elements (some 3) = [] ∧ after.parentOf (some 4) = none := by
  intro row
  have reached : Reached (fun tree _ => tree.Shallow) row := .applyAll .empty (by decide)
  have owned := reached.owned
  have acyclic := reached.acyclic fun _ _ shallow => shallow
  have shallow : row.Shallow := owned.shallow (by decide)
  have beside : ∀ id, row.parentOf (some id) = some 5 →
      ∀ above, row.Above above id → above = 5 := by
    intro id held above higher
    obtain ⟨parent, linked, rfl | further⟩ := higher.cases
    · exact (Option.some.inj (held.symm.trans linked)).symm
    · obtain rfl := Option.some.inj (held.symm.trans linked)
      obtain ⟨next, beyond, -⟩ := further.cases
      rw [show row.parentOf (some 5) = none by decide] at beyond
      cases beyond
  have apart : ¬ row.Above 0 4 ∧ ¬ row.Above 4 0 := by
    refine ⟨fun higher => ?_, fun higher => ?_⟩
    · exact absurd (beside 4 (by decide) 0 higher) (by decide)
    · exact absurd (beside 0 (by decide) 4 higher) (by decide)
  have listed : row.commaList? (some 4) = some (some 3) := by decide
  have holds : row.CommasHoldExpressions [0, 4] := by
    intro id member inner there
    rcases List.mem_pair.mp member with rfl | rfl
    · rw [show row.commaList? (some 0) = none by decide] at there
      cases there
    · obtain rfl := Option.some.inj (listed.symm.trans there)
      decide
  have present : 0 < row.size ∧ 4 < row.size := by decide
  have single : row.family? (some 0) = none ∧ row.family? (some 4) = none := by decide
  obtain ⟨after, result, list, same, joined, -, -, emptied⟩ :=
    combineWithComma_contract owned acyclic shallow present single (by decide) apart holds
  obtain ⟨empty, free, -⟩ := emptied (some 3) listed
  refine ⟨⟨owned, acyclic, shallow, present, single, by decide, apart, holds⟩, after, result, list,
    same, (joined.new (by decide)).1, joined.listed, ?_, empty, free⟩
  rw [joined.row]
  decide

end ScriptSyntax.Tree
