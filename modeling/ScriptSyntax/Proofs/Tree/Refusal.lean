import ScriptSyntax.Proofs.Tree.Operations

/-! Which calls are refused. A call that is to put a node into a slot is turned down when the
node is the holder itself, or is met on the way up from there. The way is followed only so
far: in a tree that is deeper a node can come to be above itself. -/
namespace ScriptSyntax

namespace Operation

variable {tree : Tree} {operation : Operation}

/-- The tree after a call that is carried out; nothing when it is refused. -/
def attempt (tree : Tree) : Operation → Option Tree
  | make construction span => some (construction.build tree span).tree
  | append list node => tree.append list node
  | insert list position node => tree.insert list position node
  | setElement list position node => tree.setElement list position node
  | removeAt list position => some (tree.removeAt list position).1
  | replaceChild parent old new => tree.replaceChild parent old new
  | setChild parent position new => tree.setChild parent position new
  | combineWithComma left right => some (tree.combineWithComma left right).1
  | setScope node scope => tree.setScope node scope
  | bindLookup node scopes => (tree.bindLookup node scopes).map (·.tree)

theorem apply_eq (operation : Operation) (tree : Tree) :
    operation.apply tree = (operation.attempt tree).getD tree := by
  cases operation <;> rfl

theorem apply_of_refused (refused : operation.attempt tree = none) :
    operation.apply tree = tree := by
  rw [apply_eq, refused, Option.getD_none]

/-- The call is to put `new` into a slot of `parent`, in the place of a child or into an empty
slot or between the elements of a list. Nothing in the place of a child empties its slot. -/
def Installs (tree : Tree) (parent : NodeId) (new : Handle) : Operation → Prop
  | append list node | insert list _ node =>
    list = some parent ∧ node = new ∧ new ≠ none ∧ (tree.family? (some parent)).isSome
  | replaceChild holder old node =>
    holder = some parent ∧ node = new ∧ old ≠ none ∧ old ∈ tree.slots (some parent) ∧ old ≠ new
  | setChild holder position node =>
    holder = some parent ∧ node = new ∧ tree.family? (some parent) = none ∧
      ∃ old, (tree.slots (some parent))[position]? = some old ∧ old ≠ new
  | _ => False

end Operation

namespace Tree

variable {tree after : Tree} {parent child gone list : NodeId} {new : Handle} {position : Nat}
  {behind : Nat → Nat}
  {allowed : Tree → Operation → Prop} {operation : Operation}

theorem not_encloses_none (tree : Tree) (parent : NodeId) : tree.encloses none parent = false := by
  simp [encloses]

theorem encloses_iff : tree.encloses (some child) parent = true ↔
    child = parent ∨ child ∈ tree.ancestors (some parent) := by
  simp [encloses]

/-- If nothing else can stop a call, it is refused just when the node is found to enclose its
new parent. -/
theorem guard_bind_eq_none_iff {Result : Type} {rest : Unit → Option Result}
    (carried : ∀ passed, rest passed ≠ none) :
    (guard (!tree.encloses new parent) : Option Unit).bind rest = none ↔
      tree.encloses new parent = true := by
  cases tree.encloses new parent with
  | true => simp [guard]
  | false => simp [guard, carried]

/-- A child is still in its slot when another has been adopted by the same parent. -/
theorem Owned.mem_adopt_slots (owned : tree.Owned) (member : some gone ∈ tree.slots (some parent))
    (distinct : gone ≠ child) :
    some gone ∈ (tree.adopt parent (some child)).slots (some parent) := by
  rw [adopt_slots, (owned.detach_moved child parent).owned.mem_slots_iff, owned.detach_parentOf,
    if_neg distinct]
  exact owned.mem_slots_iff.mp member

theorem Owned.replaceChild_eq_none_iff (owned : tree.Owned)
    (member : some gone ∈ tree.slots (some parent)) (distinct : some gone ≠ new) :
    tree.replaceChild (some parent) (some gone) new = none ↔ tree.encloses new parent = true := by
  have held := owned.mem_slots_iff.mp member
  obtain ⟨node, found⟩ : ∃ node, tree.get? (some parent) = some node :=
    ⟨_, Array.getElem?_eq_getElem (owned.parent_lt held)⟩
  obtain ⟨first, slot, -⟩ := Node.slotOf?_eq_some (slots_of_get? found ▸ member)
  simp only [Tree.replaceChild, bind, Option.bind_some, found, slot, if_neg distinct]
  cases new with
  | none => simp [not_encloses_none]
  | some child =>
    simp only [Option.isNone_some, Bool.false_eq_true, if_false]
    refine guard_bind_eq_none_iff fun _ => ?_
    have still := owned.mem_adopt_slots member fun same => distinct (congrArg some same)
    have detached := owned.detach_moved child parent
    have room : parent < (tree.adopt parent (some child)).size :=
      Nat.lt_of_lt_of_eq (owned.parent_lt held) ((size_modify ..).trans detached.size).symm
    obtain ⟨moved, stands⟩ : ∃ moved,
        (tree.adopt parent (some child)).get? (some parent) = some moved :=
      ⟨_, Array.getElem?_eq_getElem room⟩
    obtain ⟨place, there, -⟩ := Node.slotOf?_eq_some (slots_of_get? stands ▸ still)
    simp [stands, there]

theorem Owned.insertElement_eq_none_iff (owned : tree.Owned)
    (isList : (tree.family? (some list)).isSome) :
    tree.insertElement list position (some child) = none ↔
      tree.encloses (some child) list = true := by
  simp only [Tree.insertElement, bind]
  refine guard_bind_eq_none_iff fun _ => ?_
  have still : ((tree.adopt list (some child)).family? (some list)).isSome := by
    rw [adopt_family?, (owned.detach_moved child list).family?]
    exact isList
  simp [still, guard]

theorem Owned.insert_eq_none_iff (owned : tree.Owned)
    (isList : (tree.family? (some list)).isSome) :
    tree.insertBy behind (some list) position (some child) = none ↔
      tree.encloses (some child) list = true := by
  obtain ⟨family, same⟩ := Option.isSome_iff_exists.mp isList
  by_cases refused : tree.encloses (some child) list = true
  · simp [Tree.insertBy, same, refused, guard]
  · have carried : tree.insertElement list position (some child) ≠ none :=
      mt (owned.insertElement_eq_none_iff isList).mp refused
    simp only [Tree.insertBy, bind, same, Option.bind_some]
    refine guard_bind_eq_none_iff fun _ => ?_
    split
    · simp
    · exact carried

/-- What filling or changing a slot of a node that is no list comes to. -/
theorem setChild_of_fixed {old : Handle} (fixed : tree.family? (some parent) = none)
    (there : (tree.slots (some parent))[position]? = some old) :
    tree.setChild (some parent) position new =
      if old.isSome then tree.replaceChild (some parent) old new
      else if new.isNone then some tree
      else (guard (!tree.encloses new parent) : Option Unit).bind fun _ =>
        some (((tree.adopt parent new).modify (some parent)
          (·.setSlot position new)).widenAncestors new) := by
  obtain ⟨inside, -⟩ := List.getElem?_eq_some_iff.mp there
  obtain ⟨node, found⟩ : ∃ node, tree.get? (some parent) = some node := by
    cases found : tree.get? (some parent) with
    | some node => exact ⟨node, rfl⟩
    | none => simp [slots, found] at inside
  have single : node.isList = false := by
    rw [family?_of_get? found] at fixed
    simp [Node.isList, Form.isList, fixed]
  rw [slots_of_get? found] at inside there
  have slot : node.slot position = old := by
    rw [Node.slot, there]
    rfl
  simp only [Tree.setChild, bind, Option.bind_some, found, single, Bool.false_eq_true, if_false,
    inside, guard, if_true, slot]
  rfl

theorem Owned.setChild_eq_none_iff {old : Handle} (owned : tree.Owned)
    (fixed : tree.family? (some parent) = none)
    (there : (tree.slots (some parent))[position]? = some old) (distinct : old ≠ new) :
    tree.setChild (some parent) position new = none ↔ tree.encloses new parent = true := by
  rw [setChild_of_fixed fixed there]
  cases old with
  | some gone => exact owned.replaceChild_eq_none_iff (List.mem_of_getElem? there) distinct
  | none =>
    obtain ⟨child, rfl⟩ := Option.ne_none_iff_exists'.mp distinct.symm
    exact guard_bind_eq_none_iff fun _ => by simp

/-- A call that is to put a node into a slot of another is refused if the node encloses the
other, and for no other reason. -/
theorem Owned.attempt_eq_none_iff (owned : tree.Owned)
    (installs : operation.Installs tree parent new) :
    operation.attempt tree = none ↔ tree.encloses new parent = true := by
  cases operation with
  | append holder node | insert holder _ node =>
    obtain ⟨rfl, rfl, given, isList⟩ := installs
    obtain ⟨child, rfl⟩ := Option.ne_none_iff_exists'.mp given
    exact owned.insert_eq_none_iff isList
  | replaceChild holder old node =>
    obtain ⟨rfl, rfl, given, member, distinct⟩ := installs
    obtain ⟨gone, rfl⟩ := Option.ne_none_iff_exists'.mp given
    exact owned.replaceChild_eq_none_iff member distinct
  | setChild holder position node =>
    obtain ⟨rfl, rfl, fixed, old, there, distinct⟩ := installs
    exact owned.setChild_eq_none_iff fixed there distinct
  | _ => exact installs.elim

/-- If it is carried out, it moves nodes to that parent only. -/
theorem Owned.attempt_moves (owned : tree.Owned) (admissible : operation.Admissible tree)
    (installs : operation.Installs tree parent new) (carried : operation.attempt tree = some after) :
    Moves parent tree after := by
  cases operation with
  | append holder node | insert holder _ node =>
    obtain ⟨rfl, rfl, -⟩ := installs
    exact owned.insert
      (fun child same => admissible.lt child (by simp [Operation.handles, same])) carried
  | replaceChild holder old node =>
    obtain ⟨rfl, rfl, -⟩ := installs
    exact owned.replaceChild
      (fun child same => admissible.lt child (by simp [Operation.handles, same])) carried
  | setChild holder position node =>
    obtain ⟨rfl, rfl, -⟩ := installs
    exact owned.setChild
      (fun child same => admissible.lt child (by simp [Operation.handles, same])) carried
  | _ => exact installs.elim

theorem Owned.replaceChild_parentOf {old : Handle} (owned : tree.Owned)
    (present : child < tree.size) (distinct : old ≠ some child)
    (replaced : tree.replaceChild (some parent) old (some child) = some after) :
    (∀ gone, old = some gone → tree.parentOf (some gone) = some parent) ∧
      ∀ id, after.parentOf (some id) =
        if old = some id then none else if id = child then some parent
        else tree.parentOf (some id) := by
  rcases owned.replaceChild_steps (fun id same => Option.some.inj same ▸ present) replaced with
    ⟨same, -⟩ | ⟨holder, gone, same, rfl, held, ⟨none, -⟩ |
      ⟨moved, node, placed, here, -, -, -, place, -, result⟩⟩
  · exact absurd same distinct
  · cases none
  · obtain rfl := Option.some.inj same
    obtain rfl := Option.some.inj here
    refine ⟨fun id same => Option.some.inj same ▸ held, fun id => ?_⟩
    rw [result, (Respanned.widenAncestors _ _).parentOf, (Respanned.refreshIfList _ _ _).parentOf,
      owned.parentOf_placed place]

/-- The node takes its place, unless it is a list that gives up its elements: it gets its new
parent, and one that has to go is left without. -/
theorem Owned.attempt_parentOf (owned : tree.Owned) (admissible : operation.Admissible tree)
    (installs : operation.Installs tree parent (some child))
    (whole : ∀ family, tree.family? (some child) = some family →
      tree.family? (some parent) ≠ some family)
    (carried : operation.attempt tree = some after) :
    ∃ old : Handle, (∀ gone, old = some gone → tree.parentOf (some gone) = some parent) ∧
      ∀ id, after.parentOf (some id) =
        if old = some id then none else if id = child then some parent
        else tree.parentOf (some id) := by
  cases operation with
  | append holder node | insert holder position node =>
    obtain ⟨rfl, rfl, -⟩ := installs
    have present : child < tree.size := admissible.lt child (by simp [Operation.handles])
    obtain ⟨list, moved, family, same, here, listed, -, rest⟩ := insert_cases carried
    obtain rfl := Option.some.inj same
    obtain rfl := Option.some.inj here
    rcases rest with ⟨alike, -⟩ | ⟨-, inserted⟩
    · exact absurd listed (whole family alike)
    · obtain ⟨-, -, placed, fitted, place, -, same, fit⟩ :=
        owned.insertElement_steps present inserted
      have respanned : Respanned placed fitted := fit ▸ .fitList placed _ _ _
      refine ⟨none, by simp, fun id => ?_⟩
      rw [same, (Respanned.widenAncestors _ _).parentOf, respanned.parentOf,
        owned.parentOf_placed place]
  | replaceChild holder old node =>
    obtain ⟨rfl, rfl, -, -, distinct⟩ := installs
    exact ⟨old, owned.replaceChild_parentOf (admissible.lt child (by simp [Operation.handles]))
      distinct carried⟩
  | setChild holder position node =>
    obtain ⟨rfl, rfl, fixed, old, there, distinct⟩ := installs
    have present : child < tree.size := admissible.lt child (by simp [Operation.handles])
    rw [Operation.attempt, setChild_of_fixed fixed there] at carried
    refine ⟨old, ?_⟩
    cases old with
    | some gone => exact owned.replaceChild_parentOf present distinct carried
    | none =>
      obtain ⟨_, -, result⟩ := Option.bind_eq_some_iff.mp carried
      have inside : child < (tree.detach (some child)).size :=
        Nat.lt_of_lt_of_eq present (owned.detach_moved child parent).size.symm
      have place : Placed (tree.detach (some child)) _ parent child none :=
        place_placed (·.set position (some child)) inside (by simp)
      refine ⟨by simp, fun id => ?_⟩
      rw [← Option.some.inj result, (Respanned.widenAncestors _ _).parentOf]
      exact owned.parentOf_placed place id
  | _ => exact installs.elim

section Circle

variable {before : Tree} {old : Handle}

/-- A node that is put below one that it is above comes to be above itself. -/
theorem Above.closes (higher : before.Above child parent) (acyclic : before.Acyclic)
    (replaces : ∀ gone, old = some gone → before.parentOf (some gone) = some parent)
    (links : ∀ id, after.parentOf (some id) =
      if old = some id then none else if id = child then some parent
      else before.parentOf (some id)) : after.Above child child := by
  -- the way up from the parent neither begins with the node that goes nor passes it
  have kept {id next : NodeId} (upward : id = parent ∨ before.Above id parent)
      (lower : before.Above child id) (linked : before.parentOf (some id) = some next) :
      after.parentOf (some id) = some next := by
    have stays : old ≠ some id := by
      intro same
      have under := replaces id same
      rcases upward with rfl | further
      · exact acyclic id (.of_parent under)
      · exact acyclic id (further.lift under)
    have distinct : id ≠ child := by
      rintro rfl
      exact acyclic id lower
    rw [links, if_neg stays, if_neg distinct, linked]
  have still : ∀ {id}, before.Above child id → (id = parent ∨ before.Above id parent) →
      after.Above child id := by
    intro id lower
    induction lower using Relation.TransGen.head_induction_on with
    | single linked => exact fun upward => .of_parent (kept upward (.of_parent linked) linked)
    | @head id next linked further ih =>
      intro upward
      have beyond : before.Above next parent := by
        rcases upward with rfl | upward
        · exact .of_parent linked
        · exact Relation.TransGen.tail upward linked
      exact (ih (.inr beyond)).lift (kept upward (Above.lift further linked) linked)
  have stays : old ≠ some child := by
    intro same
    exact acyclic parent (higher.tail (replaces child same))
  refine (still higher (.inl rfl)).lift ?_
  rw [links, if_neg stays, if_pos rfl]

end Circle

/-- A call that is to put a node into a slot is refused, and changes nothing, just when the
node is the holder or among the nodes met on the way up from it. Where the holder is not too
deep these are all the nodes above it, and then no call puts a node above itself. Where it is,
a node that is further up is let in, and with it the circle is closed. -/
theorem Reached.refusal (reached : Reached allowed tree) (admissible : operation.Admissible tree)
    (installs : operation.Installs tree parent new) :
    (operation.attempt tree = none ↔
      ∃ child, new = some child ∧ (child = parent ∨ child ∈ tree.ancestors (some parent))) ∧
    (operation.attempt tree = none → operation.apply tree = tree) ∧
    (tree.ShallowAt parent →
      (operation.attempt tree = none ↔
        ∃ child, new = some child ∧ (child = parent ∨ tree.Above child parent)) ∧
      ∀ id, (operation.apply tree).Above id id → tree.Above id id) ∧
    (tree.Acyclic → operation.attempt tree ≠ none → ∀ child, new = some child →
      (∀ family, tree.family? (some child) = some family →
        tree.family? (some parent) ≠ some family) →
      tree.Above child parent → (operation.apply tree).Above child child) := by
  have owned := reached.owned
  have refused : operation.attempt tree = none ↔
      ∃ child, new = some child ∧ (child = parent ∨ child ∈ tree.ancestors (some parent)) := by
    rw [owned.attempt_eq_none_iff installs]
    cases new with
    | none => simp [not_encloses_none]
    | some child => simp [encloses_iff]
  refine ⟨refused, Operation.apply_of_refused, fun shallow => ⟨?_, fun id => ?_⟩, ?_⟩
  · rw [refused]
    simp only [shallow.mem_ancestors_iff]
  · rw [Operation.apply_eq]
    cases result : operation.attempt tree with
    | none => exact fun circle => circle
    | some after => exact ((owned.attempt_moves admissible installs result).circles shallow).1 id
  · rintro acyclic carried child rfl whole higher
    obtain ⟨after, result⟩ := Option.ne_none_iff_exists'.mp carried
    obtain ⟨old, replaces, links⟩ := owned.attempt_parentOf admissible installs whole result
    rw [Operation.apply_eq, result]
    exact higher.closes acyclic replaces links

/-- A sum is not put in the place of its own operand's operand. -/
theorem refusal_of_enclosing_sum :
    let sum := Operation.applyAll [.make (.lookup "a") .empty,
      .make (.unary (.punctuator .minus) (some 0) false) .empty, .make (.lookup "b") .empty,
      .make (.binary (.punctuator .plus) (some 1) (some 2)) .empty] {}
    let call := Operation.replaceChild (some 1) (some 0) (some 3)
    (Reached (fun tree _ => tree.Shallow) sum ∧ call.Admissible sum ∧
      call.Installs sum 1 (some 3)) ∧ call.attempt sum = none ∧ call.apply sum = sum := by
  intro sum call
  have reached : Reached (fun tree _ => tree.Shallow) sum := .applyAll .empty (by decide)
  have admissible : call.Admissible sum := by decide
  have installs : call.Installs sum 1 (some 3) := ⟨rfl, rfl, by decide, by decide, by decide⟩
  obtain ⟨refused, unchanged, -⟩ := reached.refusal admissible installs
  have none := refused.mpr ⟨3, rfl, .inr (by decide)⟩
  exact ⟨⟨reached, admissible, installs⟩, none, unchanged none⟩

/-- A node around one that belongs to nobody. -/
theorem add_around (form : Form) (free : tree.parentOf (some child) = none)
    (present : child < tree.size) (span : Span) (admits : form.Admits [some child]) :
    let after := (tree.add form [some child] span admits).tree
    after.size = tree.size + 1 ∧
      (∀ id, after.parentOf (some id) =
        if id = child then some tree.size else tree.parentOf (some id)) ∧
      (∀ id, after.family? (some id) =
        if id = tree.size then form.family? else tree.family? (some id)) ∧
      (∀ id, after.form? (some id) =
        if id = tree.size then some form else tree.form? (some id)) ∧
      ∀ id, after.slots (some id) =
        if id = tree.size then [some child] else tree.slots (some id) := by
  let pushed := tree.push { form, slots := [some child], span, admits }
  let adopted := pushed.modify (some child) (·.withParent (some tree.size))
  have alone : pushed.parentOf (some child) = none := (parentOf_push rfl tree child).trans free
  have inside : child < pushed.size :=
    Nat.lt_of_lt_of_eq (Nat.lt_succ_of_lt present) (size_push ..).symm
  have slot : pushed.slot (some tree.size) 0 = some child := by
    rw [slot_eq, slots_push, if_pos rfl]
    rfl
  have stays : pushed.adopt tree.size (some child) = adopted := by
    rw [Tree.adopt, Tree.detach, alone]
  have same : (tree.add form [some child] span admits).tree =
      adopted.widenOver (some tree.size) (some child) := by
    change pushed.attachSlot tree.size 0 = _
    rw [attachSlot, slot]
    exact congrArg (·.widenOver (some tree.size) (some child)) stays
  have widened := Respanned.widenOver adopted (some tree.size) (some child)
  have adopts : KeepsForms pushed adopted := .modify _ _ fun _ => rfl
  have forms := adopts.trans (.widenOver adopted (some tree.size) (some child))
  dsimp only
  rw [same]
  refine ⟨?_, fun id => ?_, fun id => ?_, fun id => ?_, fun id => ?_⟩
  · exact widened.size.trans ((size_modify ..).trans (size_push ..))
  · rw [widened.parentOf, parentOf_withParent inside, parentOf_push rfl]
  · rw [widened.family?, family?_withParent, family?_push]
  · rw [forms.form?, form?_push]
  · rw [widened.slots, slots_withParent, slots_push]

/-- A name under so many negations, from the inside out. -/
def nest : Nat → List Operation
  | 0 => [.make (.lookup "a") .empty]
  | depth + 1 => nest depth ++ [.make (.unary (.punctuator .minus) (some depth) false) .empty]

/-- The parent of each node is the next. -/
theorem nest_parentOf (depth : Nat) :
    let tree := Operation.applyAll (nest depth) {}
    Reached (fun _ _ => True) tree ∧ tree.size = depth + 1 ∧
      (∀ id : Nat, tree.parentOf (some id) = if id < depth then some (id + 1) else none) ∧
      ∀ id : Nat, tree.family? (some id) = none := by
  induction depth with
  | zero =>
    refine ⟨?_, rfl, fun id => ?_, fun id => ?_⟩
    · let name : Operation := .make (.lookup "a") .empty
      have admissible : name.Admissible {} := by decide
      exact .step .empty admissible trivial
    · cases id <;> rfl
    · cases id <;> rfl
  | succ depth ih =>
    let around : Operation := .make (.unary (.punctuator .minus) (some depth) false) .empty
    have next : Operation.applyAll (nest (depth + 1)) {} =
        around.apply (Operation.applyAll (nest depth) {}) := by
      rw [nest, Operation.applyAll, List.foldl_append]
      rfl
    dsimp only at ih ⊢
    rw [next]
    generalize Operation.applyAll (nest depth) {} = tree at ih
    obtain ⟨reached, size, parents, families⟩ := ih
    have present : depth < tree.size := Nat.lt_of_lt_of_eq (Nat.lt_succ_self depth) size.symm
    have admissible : around.Admissible tree := by
      intro handle member id same
      obtain rfl := List.mem_singleton.mp member
      exact Option.some.inj same ▸ present
    have free : tree.parentOf (some depth) = none := by simp [parents]
    obtain ⟨larger, above, family, -⟩ := add_around (.unary (.punctuator .minus) false) free present
      .empty fun _ => rfl
    refine ⟨reached.step admissible trivial, larger.trans (congrArg (· + 1) size), fun id => ?_,
      fun id => ?_⟩
    · refine (above id).trans ?_
      rw [parents, size]
      by_cases same : id = depth
      · simp [same]
      · have apart : id < depth ↔ id < depth + 1 := by omega
        simp [same, apart]
    · refine (family id).trans ?_
      rw [families]
      split <;> rfl

section Nest

variable {depth : Nat} {tree : Tree} (parents : ∀ id : Nat,
  tree.parentOf (some id) = if id < depth then some (id + 1) else none)

include parents

/-- How far up a nest the way leads. -/
theorem nest_iterate {steps id : Nat} (within : id + steps ≤ depth) :
    tree.parentOf^[steps] (some id) = some (id + steps) := by
  induction steps generalizing id with
  | zero => rfl
  | succ steps ih =>
    rw [Function.iterate_succ_apply, parents, if_pos (by omega), ih (by omega)]
    exact congrArg some (by omega)

theorem nest_iterate_eq {steps id above : Nat}
    (reach : tree.parentOf^[steps] (some id) = some above) : above = id + steps := by
  induction steps generalizing id with
  | zero => exact (Option.some.inj reach).symm
  | succ steps ih =>
    rw [Function.iterate_succ_apply, parents] at reach
    split at reach
    · rw [ih reach]
      omega
    · rw [iterate_parentOf_none] at reach
      cases reach

theorem nest_acyclic : tree.Acyclic := by
  intro id circle
  obtain ⟨steps, reach⟩ := above_iff.mp circle
  have further : id = id + (steps + 1) := nest_iterate_eq parents reach
  exact absurd further (Nat.ne_of_lt (Nat.lt_add_of_pos_right (Nat.succ_pos steps)))

end Nest

/-- In a tree that is deep enough, neither is every call refused that is to put a node below
one it is above, nor does every call leave a tree without circles as it is. -/
theorem not_refused_of_deep_nest :
    (¬ ∀ (tree : Tree) (operation : Operation) (parent child : NodeId),
      Reached (fun _ _ => True) tree → operation.Admissible tree →
      operation.Installs tree parent (some child) → tree.Above child parent →
      operation.attempt tree = none) ∧
    ¬ ∀ (tree : Tree) (operation : Operation) (parent : NodeId) (new : Handle),
      Reached (fun _ _ => True) tree → operation.Admissible tree →
      operation.Installs tree parent new → tree.Acyclic → (operation.apply tree).Acyclic := by
  obtain ⟨reached, size, parents, families⟩ := nest_parentOf 10002
  generalize Operation.applyAll (nest 10002) {} = tree at reached size parents families
  let call := Operation.replaceChild (some 1) (some 0) (some 10002)
  have owned := reached.owned
  have admissible : call.Admissible tree := by
    intro handle member id same
    have inside : id ≤ 10002 := by
      simp only [call, Operation.handles, List.mem_cons, List.not_mem_nil, or_false] at member
      rcases member with rfl | rfl | rfl <;> cases same <;> decide
    exact Nat.lt_of_lt_of_eq (Nat.lt_succ_of_le inside) size.symm
  have installs : call.Installs tree 1 (some 10002) := by
    refine ⟨rfl, rfl, by decide, owned.mem_slots_iff.mpr ?_, by decide⟩
    rw [parents]
    rfl
  have acyclic : tree.Acyclic := nest_acyclic parents
  have higher : tree.Above 10002 1 := above_iff.mpr ⟨10000, nest_iterate parents (by decide)⟩
  have carried : call.attempt tree ≠ none := by
    rw [Ne, owned.attempt_eq_none_iff installs, encloses_iff]
    rintro (top | far)
    · cases top
    · obtain ⟨steps, few, reach⟩ := mem_ancestors_iff.mp far
      have followed : steps < 10000 := few
      have there : 10002 = 1 + (steps + 1) := nest_iterate_eq parents reach
      omega
  refine ⟨fun all => carried (all tree call 1 10002 reached admissible installs higher),
    fun all => ?_⟩
  obtain ⟨after, result⟩ := Option.ne_none_iff_exists'.mp carried
  obtain ⟨old, replaces, links⟩ := owned.attempt_parentOf admissible installs
    (fun family same => by rw [families] at same; cases same) result
  have still := all tree call 1 _ reached admissible installs acyclic 10002
  rw [Operation.apply_eq, result] at still
  exact still (higher.closes acyclic replaces links)

end Tree

end ScriptSyntax
