import ScriptSyntax.Proofs.Tree.Ancestors
import ScriptSyntax.Scope.Binding

/-! All the ways to build and change a tree, and the trees that come of them. Each keeps
slots and parents in step, and closes no circle of parents. -/
namespace ScriptSyntax

/-- A constructor with what it is given besides the tree and the span. -/
inductive Construction where
  | constant (value : Constant)
  | regularExpression (pattern flags : String)
  | lookup (name : String)
  | binary (op : TokenKind) (left right : Handle)
  | unary (op : TokenKind) (operand : Handle) (afterOperand : Bool)
  | conditional (condition whenTrue whenFalse : Handle)
  | comma (expressions : List Handle)
  | arrayLiteral (elements : List Handle)
  | objectLiteral (properties : List Handle)
  | propertyName (name : String)
  | property (name value : Handle)
  | function (name : Option String) (parameters : List Handle) (body : Handle)
  | parameter (name : String)
  | expressionStatement (expression : Handle)
  | varStatement (declarations : List Handle)
  | declaration (name : String) (initializer : Handle)
  | block (statements : List Handle)
  | forLoop (initializer condition increment body : Handle)
  | forIn (binding collection body : Handle)
  | whileLoop (condition body : Handle)
  | doWhile (body condition : Handle)
  | switchStatement (expression : Handle) (cases : List Handle)
  | switchCase (value : Handle) (statements : List Handle)
  | program (statements : List Handle)
  | list (family : ListFamily) (elements : List Handle)

namespace Construction

/-- The nodes that are named. -/
def handles : Construction → List Handle
  | constant _ | regularExpression .. | lookup _ | propertyName _ | parameter _ => []
  | binary _ left right => [left, right]
  | unary _ operand _ => [operand]
  | conditional condition whenTrue whenFalse => [condition, whenTrue, whenFalse]
  | comma elements | arrayLiteral elements | objectLiteral elements | varStatement elements
  | block elements | program elements | list _ elements => elements
  | property name value => [name, value]
  | function _ parameters body => body :: parameters
  | expressionStatement expression => [expression]
  | declaration _ initializer => [initializer]
  | forLoop initializer condition increment body => [initializer, condition, increment, body]
  | forIn binding collection body => [binding, collection, body]
  | whileLoop condition body => [condition, body]
  | doWhile body condition => [body, condition]
  | switchStatement expression cases => expression :: cases
  | switchCase value statements => value :: statements

def build (tree : Tree) (span : Span) : Construction → Tree.Built
  | constant value => tree.addConstant span value
  | regularExpression pattern flags => tree.addRegularExpression span pattern flags
  | lookup name => tree.addLookup span name
  | binary op left right => tree.addBinary span op left right
  | unary op operand afterOperand => tree.addUnary span op operand afterOperand
  | conditional condition whenTrue whenFalse =>
    tree.addConditional span condition whenTrue whenFalse
  | comma expressions => tree.addComma span expressions
  | arrayLiteral elements => tree.addArrayLiteral span elements
  | objectLiteral properties => tree.addObjectLiteral span properties
  | propertyName name => tree.addPropertyName span name
  | property name value => tree.addProperty span name value
  | function name parameters body => tree.addFunction span name parameters body
  | parameter name => tree.addParameter span name
  | expressionStatement expression => tree.addExpressionStatement span expression
  | varStatement declarations => tree.addVar span declarations
  | declaration name initializer => tree.addDeclaration span name initializer
  | block statements => tree.addBlock span statements
  | forLoop initializer condition increment body =>
    tree.addFor span initializer condition increment body
  | forIn binding collection body => tree.addForIn span binding collection body
  | whileLoop condition body => tree.addWhile span condition body
  | doWhile body condition => tree.addDoWhile span body condition
  | switchStatement expression cases => tree.addSwitch span expression cases
  | switchCase value statements => tree.addSwitchCase span value statements
  | program statements => tree.addProgram span statements
  | list family elements => tree.addList family span elements

/-- Every constructor makes a node with children, or a list of its own and such a node, or
just a list. -/
theorem build_cases (construction : Construction) (tree : Tree) (span : Span) :
    (∃ form children, ∃ admits : form.Admits children, form.family? = none ∧
        children ⊆ construction.handles ∧
        construction.build tree span = tree.add form children span admits) ∨
      (∃ form family first elements last, ∃ admits : ∀ list, form.Admits (first ++ list :: last),
        form.family? = none ∧
        first ++ last ⊆ construction.handles ∧ elements ⊆ construction.handles ∧
        construction.build tree span =
          tree.addWithList form family span first elements last admits) ∨
      ∃ family elements, elements ⊆ construction.handles ∧
        construction.build tree span = tree.addList family span elements := by
  cases construction
  case list => exact .inr (.inr ⟨_, _, List.Subset.refl _, rfl⟩)
  case comma | arrayLiteral | objectLiteral | varStatement | block | program =>
    exact .inr (.inl ⟨_, _, _, _, _, fun _ _ => rfl, rfl, List.nil_subset _, List.Subset.refl _,
      rfl⟩)
  case function | switchStatement | switchCase =>
    refine .inr (.inl ⟨_, _, _, _, _, fun _ _ => rfl, rfl, ?_, ?_, rfl⟩) <;> simp [handles]
  all_goals exact .inl ⟨_, _, fun _ => rfl, rfl, List.Subset.refl _, rfl⟩

end Construction

/-- One call that builds or changes a tree. -/
inductive Operation where
  | make (construction : Construction) (span : Span)
  | append (list node : Handle)
  | insert (list : Handle) (position : Nat) (node : Handle)
  | setElement (list : Handle) (position : Nat) (node : Handle)
  | removeAt (list : Handle) (position : Nat)
  | replaceChild (parent old new : Handle)
  | setChild (parent : Handle) (position : Nat) (new : Handle)
  | combineWithComma (left right : Handle)
  | setScope (node : Handle) (scope : ScopeId)
  | bindLookup (node : Handle) (scopes : ScopeTable)

namespace Operation

def handles : Operation → List Handle
  | make construction _ => construction.handles
  | append list node | insert list _ node | setElement list _ node => [list, node]
  | removeAt list _ => [list]
  | replaceChild parent old new => [parent, old, new]
  | setChild parent _ new => [parent, new]
  | combineWithComma left right => [left, right]
  | setScope node _ | bindLookup node _ => [node]

/-- The tree after the call; one that is refused changes nothing. -/
def apply (tree : Tree) : Operation → Tree
  | make construction span => (construction.build tree span).tree
  | append list node => (tree.append list node).getD tree
  | insert list position node => (tree.insert list position node).getD tree
  | setElement list position node => (tree.setElement list position node).getD tree
  | removeAt list position => (tree.removeAt list position).1
  | replaceChild parent old new => (tree.replaceChild parent old new).getD tree
  | setChild parent position new => (tree.setChild parent position new).getD tree
  | combineWithComma left right => (tree.combineWithComma left right).1
  | setScope node scope => (tree.setScope node scope).getD tree
  | bindLookup node scopes => ((tree.bindLookup node scopes).map (·.tree)).getD tree

/-- Every handle names no node or one that is there. -/
def Admissible (operation : Operation) (tree : Tree) : Prop :=
  ∀ handle ∈ operation.handles, ∀ id ∈ handle, id < tree.size

instance (operation : Operation) (tree : Tree) : Decidable (operation.Admissible tree) :=
  inferInstanceAs (Decidable (∀ handle ∈ operation.handles, ∀ id ∈ handle, id < tree.size))

/-- Calls made one after another. -/
def applyAll (operations : List Operation) (tree : Tree) : Tree :=
  operations.foldl (fun tree operation => operation.apply tree) tree

/-- Every node that a call names is there when the call is made, and the tree has no more
nodes by then than parent links are followed. -/
def AllAdmissible : List Operation → Tree → Prop
  | [], _ => True
  | operation :: later, tree =>
    tree.size ≤ ancestorLimit ∧ operation.Admissible tree ∧
      AllAdmissible later (operation.apply tree)

instance decidableAllAdmissible :
    (operations : List Operation) → (tree : Tree) → Decidable (AllAdmissible operations tree)
  | [], _ => inferInstanceAs (Decidable True)
  | operation :: later, tree =>
    have := decidableAllAdmissible later (operation.apply tree)
    inferInstanceAs (Decidable (tree.size ≤ ancestorLimit ∧ operation.Admissible tree ∧
      AllAdmissible later (operation.apply tree)))

theorem Admissible.lt {operation : Operation} {tree : Tree} (admissible : operation.Admissible tree)
    (id : NodeId) (named : some id ∈ operation.handles) : id < tree.size :=
  admissible (some id) named id rfl

end Operation

namespace Tree

/-- The trees that come of the empty one by calls of the kind that `allowed` says. -/
inductive Reached (allowed : Tree → Operation → Prop) : Tree → Prop where
  | empty : Reached allowed {}
  | step {tree : Tree} {operation : Operation} (reached : Reached allowed tree)
      (admissible : operation.Admissible tree) (allows : allowed tree operation) :
      Reached allowed (operation.apply tree)

variable {tree after : Tree} {id parent child : NodeId} {handle : Handle}

/-- What an operation does to a tree that is in order: it stays so, and nothing is above
itself unless it was before. -/
structure Sound (before after : Tree) : Prop where
  owned : after.Owned
  size : before.size ≤ after.size
  acyclic : before.Acyclic → before.Shallow → after.Acyclic

namespace Sound

theorem of_respanned (owned : tree.Owned) (respanned : Respanned tree after) :
    Sound tree after where
  owned := owned.respanned respanned
  size := Nat.le_of_eq respanned.size.symm
  acyclic acyclic _ id circle := acyclic id <| circle.mono fun id parent linked => by
    rwa [respanned.parentOf] at linked

theorem of_moves (owned : tree.Owned) (moves : Moves parent tree after) : Sound tree after where
  owned := (moves.owned owned).1
  size := Nat.le_of_eq (moves.owned owned).2.1.symm
  acyclic acyclic shallow := (moves.acyclic acyclic (shallow parent)).1

/-- A change that may be refused. -/
theorem getD {changed : Option Tree} (owned : tree.Owned)
    (sound : ∀ after, changed = some after → Sound tree after) :
    Sound tree (changed.getD tree) := by
  cases changed with
  | none => exact of_respanned owned (.refl tree)
  | some after => exact sound after rfl

end Sound

/-- Making a list needs no limit on depth: nothing is above it. -/
theorem Owned.addList_sound (owned : tree.Owned) (family : ListFamily) (span : Span)
    {elements : List Handle} (present : ∀ child, some child ∈ elements → child < tree.size) :
    (tree.addList family span elements).tree.Owned ∧
      (tree.addList family span elements).tree.size = tree.size + 1 ∧
      (tree.Acyclic → (tree.addList family span elements).tree.Acyclic) := by
  obtain ⟨pushed, moves⟩ := owned.addList family span present
  obtain ⟨still, size, -⟩ := moves.owned pushed
  refine ⟨still, size.trans (size_push ..), fun acyclic => ?_⟩
  have links (id : NodeId) :
      (tree.push (.emptyList family span)).parentOf (some id) =
        tree.parentOf (some id) := parentOf_push rfl tree id
  refine (moves.acyclic ?_ (shallowAt_of_root ?_)).1
  · exact fun id circle => acyclic id (circle.mono fun id parent linked => links id ▸ linked)
  · intro parent linked
    rw [links, parentOf_outside (Nat.le_refl _)] at linked
    cases linked

/-- The children of a node with a new list. -/
theorem lt_of_mem_around {first last : List Handle}
    (present : some child ∈ first ++ last → child < tree.size)
    (member : some child ∈ first ++ some tree.size :: last) : child < tree.size + 1 := by
  rcases List.mem_append.mp member with before | behind
  · exact Nat.lt_succ_of_lt (present (List.mem_append_left _ before))
  · rcases List.mem_cons.mp behind with same | after
    · obtain rfl := Option.some.inj same
      exact Nat.lt_succ_self _
    · exact Nat.lt_succ_of_lt (present (List.mem_append_right _ after))

theorem Owned.addWithList (owned : tree.Owned) {form : Form} (fixed : form.family? = none)
    (family : ListFamily) (span : Span) (first elements last : List Handle)
    (admits : ∀ list, form.Admits (first ++ list :: last))
    (presentAround : ∀ child, some child ∈ first ++ last → child < tree.size)
    (present : ∀ child, some child ∈ elements → child < tree.size) :
    ∃ list children, list.Owned ∧ list.size = tree.size + 1 ∧ (tree.Acyclic → list.Acyclic) ∧
      (tree.addWithList form family span first elements last admits).id = list.size ∧
      Building list (tree.addWithList form family span first elements last admits).tree children
        children.length := by
  obtain ⟨still, size, acyclic⟩ := owned.addList_sound family span.atStart present
  refine ⟨_, _, still, size, acyclic, rfl, still.add fixed (fun child member => ?_) span _⟩
  rw [size]
  exact lt_of_mem_around (presentAround child) member

theorem Sound.of_building {before middle : Tree} {children : List Handle}
    (building : Building middle after children children.length) (size : before.size ≤ middle.size)
    (acyclic : before.Acyclic → middle.Acyclic) : Sound before after where
  owned := building.complete
  size := by
    rw [building.size]
    exact Nat.le_succ_of_le size
  acyclic old _ := building.acyclic (acyclic old)

theorem Owned.build (owned : tree.Owned) (construction : Construction) (span : Span)
    (present : ∀ child, some child ∈ construction.handles → child < tree.size) :
    Sound tree (construction.build tree span).tree := by
  rcases construction.build_cases tree span with ⟨form, children, admits, fixed, named, same⟩ |
    ⟨form, family, first, elements, last, admits, fixed, around, inside, same⟩ |
    ⟨family, elements, named, same⟩
  · rw [same]
    exact .of_building
      (owned.add fixed (fun child member => present child (named member)) span admits)
      (Nat.le_refl _) id
  · obtain ⟨list, children, -, size, acyclic, -, building⟩ := owned.addWithList fixed family span
      first elements last admits (fun child member => present child (around member))
      (fun child member => present child (inside member))
    rw [same]
    exact .of_building building (size ▸ Nat.le_succ _) acyclic
  · obtain ⟨still, size, acyclic⟩ := owned.addList_sound family span
      fun child member => present child (named member)
    rw [same]
    exact ⟨still, size ▸ Nat.le_succ _, fun old _ => acyclic old⟩

/-- A new form changes no links. -/
theorem respanned_modify_form (tree : Tree) (handle : Handle) (form : Form) :
    Respanned tree (tree.modify handle (·.withForm form)) where
  size := size_modify ..
  slots _ := slots_modify (Node.withForm_slots · form)
  parentOf _ := parentOf_modify (Node.withForm_parent · form)
  family? _ := family?_modify (Node.withForm_family? · form)

theorem setScope_respanned {scope : ScopeId} (set : tree.setScope handle scope = some after) :
    Respanned tree after := by
  simp only [setScope, bind, Option.bind_eq_some_iff] at set
  obtain ⟨_, -, form, -, same⟩ := set
  exact Option.some.inj same ▸ respanned_modify_form tree handle form

theorem bindLookup_respanned {scopes : ScopeTable} {bound : Bound}
    (binds : tree.bindLookup handle scopes = some bound) : Respanned tree bound.tree := by
  simp only [bindLookup, bind, Option.bind_eq_some_iff] at binds
  obtain ⟨name, -, same⟩ := binds
  exact Option.some.inj same ▸ respanned_modify_form tree handle _

theorem setScope_span? {scope : ScopeId} (set : tree.setScope handle scope = some after)
    (place : Handle) : after.span? place = tree.span? place := by
  simp only [setScope, bind, Option.bind_eq_some_iff] at set
  obtain ⟨_, -, form, -, same⟩ := set
  exact Option.some.inj same ▸ span?_modify (Node.withForm_span · form)

theorem bindLookup_span? {scopes : ScopeTable} {bound : Bound}
    (binds : tree.bindLookup handle scopes = some bound) (place : Handle) :
    bound.tree.span? place = tree.span? place := by
  simp only [bindLookup, bind, Option.bind_eq_some_iff] at binds
  obtain ⟨_, -, same⟩ := binds
  exact Option.some.inj same ▸ span?_modify (Node.withForm_span · _)

/-- Joining two expressions leaves the tree alone, or goes on from a comma node that was
there or is new: an addition is moved to its list, and a comma node it came from is
detached. -/
theorem combineWithComma_cases (tree : Tree) (left right : Handle) :
    (tree.combineWithComma left right).1 = tree ∨
      ∃ id node, left = some id ∧ tree.get? (some id) = some node ∧
        let sequence := tree.commaAround id node.span
        (tree.combineWithComma left right).1 = sequence.tree ∨
          ∃ list addition joined, sequence.tree.commaList? (some sequence.id) = some list ∧
            (addition = right ∨ sequence.tree.commaList? right = some addition) ∧
            (sequence.tree.get? right).isSome ∧
            sequence.tree.append list addition = some joined ∧
            ((tree.combineWithComma left right).1 = joined ∨
              ∃ previous, addition ≠ right ∧ joined.parentOf right = some previous ∧
                (tree.combineWithComma left right).1 = joined.removeChild previous right) := by
  unfold combineWithComma
  split
  · next id node found =>
    refine .inr ⟨id, node, rfl, found, ?_⟩
    dsimp only
    split
    · next addition list given there =>
      split
      · exact .inl rfl
      · next joined appended =>
        split at given
        · cases given
        next known =>
        obtain rfl := Option.some.inj given
        have given := Option.isSome_iff_ne_none.mpr (mt Option.isNone_iff_eq_none.mpr known)
        refine .inr ⟨list, _, joined, there, ?_, given, appended, ?_⟩
        · cases (tree.commaAround id node.span).tree.commaList? right with
          | none => exact .inl rfl
          | some inner => exact .inr rfl
        · split
          · next previous held =>
            split
            · next other => exact .inr ⟨previous, other, held, rfl⟩
            · exact .inl rfl
          · exact .inl rfl
    · exact .inl rfl
  · exact .inl rfl

/-- The comma node to go on from is the one that was there, or a new one without a
parent. -/
theorem Owned.commaAround (owned : tree.Owned) (present : id < tree.size) (span : Span) :
    (tree.commaAround id span).tree.Owned ∧ tree.size ≤ (tree.commaAround id span).tree.size ∧
      (tree.Acyclic → (tree.commaAround id span).tree.Acyclic) ∧
      ((tree.commaAround id span).tree = tree ∨
        (tree.commaAround id span).tree.parentOf (some (tree.commaAround id span).id) = none) := by
  unfold Tree.commaAround
  split
  · exact ⟨owned, Nat.le_refl _, fun acyclic => acyclic, .inl rfl⟩
  · obtain ⟨list, children, -, size, acyclic, same, building⟩ :=
      owned.addWithList (rfl : Form.comma.family? = none) .expressions
        (span.withKind (.punctuator .comma)) [] [some id] [] (fun _ _ => rfl) (by simp)
        (by simpa using present)
    have sound := Sound.of_building building (size ▸ Nat.le_succ tree.size) acyclic
    refine ⟨sound.owned, sound.size, fun old => building.acyclic (acyclic old), .inr ?_⟩
    have free := building.free
    rw [← same] at free
    exact free

theorem commaList?_slot {list : Handle} (there : tree.commaList? handle = some list) :
    list = tree.slot handle 0 := by
  unfold commaList? at there
  split at there
  · exact (Option.some.inj there).symm
  · cases there

theorem Owned.parentOf_slot (owned : tree.Owned) {position : Nat}
    (held : tree.slot (some parent) position = some child) :
    tree.parentOf (some child) = some parent := by
  rw [slot_eq, Option.join_eq_some_iff] at held
  exact owned.mem_slots_iff.mp (List.mem_of_getElem? held)

/-- Where the addition comes from: it is the right operand, or the list that this has in its
only slot. -/
theorem Owned.commaList?_parent (owned : tree.Owned) {right addition : Handle} {child : NodeId}
    (listed : tree.commaList? right = some addition) (given : addition = some child) :
    ∃ other, right = some other ∧ tree.parentOf (some child) = some other ∧
      tree.family? (some other) = none := by
  subst given
  cases right with
  | none => exact absurd (commaList?_slot listed) (by simp [slot, get?])
  | some other =>
    refine ⟨other, rfl, owned.parentOf_slot (commaList?_slot listed).symm, ?_⟩
    unfold commaList? at listed
    split at listed
    · next comma =>
      obtain ⟨node, found, form⟩ := Option.map_eq_some_iff.mp comma
      rw [family?_of_get? found, form]
      rfl
    · cases listed

/-- The same step by step: the tree with the comma node, the insertion into its list, and the
right operand that may have to go. -/
theorem Owned.combineWithComma_steps (owned : tree.Owned) {left right : Handle}
    (present : ∀ child, some child ∈ [left, right] → child < tree.size) :
    (tree.combineWithComma left right).1 = tree ∨
      ∃ id node, left = some id ∧ id < tree.size ∧ tree.get? (some id) = some node ∧
        let sequence := (tree.commaAround id node.span).tree
        (tree.combineWithComma left right).1 = sequence ∨
          ∃ target child position joined, (tree.Shallow → sequence.ShallowAt target) ∧
            child < sequence.size ∧
            sequence.insertBy (· + 1) (some target) position (some child) = some joined ∧
            ((tree.combineWithComma left right).1 = joined ∨
              ∃ previous other, joined.parentOf (some other) = some previous ∧
                sequence.parentOf (some child) = some other ∧
                sequence.family? (some other) = none ∧
                (tree.combineWithComma left right).1 =
                  joined.removeChild previous (some other)) := by
  rcases combineWithComma_cases tree left right with same | ⟨id, node, rfl, found, rest⟩
  · exact .inl same
  refine .inr ⟨id, node, rfl, present id (by simp), found, ?_⟩
  obtain ⟨still, size, -, root⟩ := owned.commaAround (present id (by simp)) node.span
  dsimp only at rest ⊢
  generalize tree.commaAround id node.span = sequence at rest still size root ⊢
  rcases rest with same | ⟨list, addition, joined, listed, added, -, appended, rest⟩
  · exact .inl same
  obtain ⟨target, child, family, rfl, rfl, -, -, -⟩ := insert_cases appended
  have held := still.parentOf_slot (commaList?_slot listed).symm
  refine .inr ⟨target, child, _, joined, fun old => ?_, ?_, appended, ?_⟩
  -- the list is no deeper than it was, or is new and has only the new node above it
  · rcases root with unchanged | free
    · rw [unchanged]
      exact old target
    · refine shallowAt_of_root fun parent linked => ?_
      rw [held] at linked
      exact Option.some.inj linked ▸ free
  · rcases added with rfl | inner
    · exact Nat.lt_of_lt_of_le (present child (by simp)) size
    · obtain ⟨other, -, linked, -⟩ := still.commaList?_parent inner rfl
      exact child_lt linked
  · rcases rest with same | ⟨previous, apart, linked, same⟩
    · exact .inl same
    · obtain ⟨other, rfl, below, fixed⟩ :=
        still.commaList?_parent (added.resolve_left apart) rfl
      exact .inr ⟨previous, other, linked, below, fixed, same⟩

theorem Owned.combineWithComma (owned : tree.Owned) {left right : Handle}
    (present : ∀ child, some child ∈ [left, right] → child < tree.size) :
    Sound tree (tree.combineWithComma left right).1 := by
  rcases owned.combineWithComma_steps present with same | ⟨id, node, rfl, inside, found, rest⟩
  · rw [same]
    exact .of_respanned owned (.refl tree)
  obtain ⟨still, size, acyclic, -⟩ := owned.commaAround inside node.span
  rcases rest with same | ⟨target, child, position, joined, shallow, there, inserted, rest⟩
  · rw [same]
    exact ⟨still, size, fun old _ => acyclic old⟩
  have joins := still.insert (fun other same => Option.some.inj same ▸ there) inserted
  have moves : Moves target (tree.commaAround id node.span).tree
      (tree.combineWithComma (some id) right).1 := by
    rcases rest with same | ⟨previous, other, linked, -, -, same⟩
    · rw [same]
      exact joins
    · rw [same]
      exact joins.trans ((joins.owned still).1.removeChild linked target).moves
  obtain ⟨after, sameSize, -⟩ := moves.owned still
  refine ⟨after, sameSize ▸ size, fun old shallows => ?_⟩
  exact (moves.acyclic (acyclic old) (shallow shallows)).1

end Tree

/-- Every call keeps a tree in order. -/
theorem Operation.apply_sound {tree : Tree} (operation : Operation) (owned : tree.Owned)
    (admissible : operation.Admissible tree) : tree.Sound (operation.apply tree) := by
  cases operation with
  | make construction span => exact owned.build construction span admissible.lt
  | append list node | insert list position node =>
    refine .getD owned fun after changed => ?_
    obtain ⟨target, -, -, rfl, -⟩ := Tree.insert_cases changed
    exact .of_moves owned (owned.insert
      (fun child same => admissible.lt child (by simp [handles, same])) changed)
  | setElement list position node =>
    refine .getD owned fun after changed => ?_
    cases list with
    | none => cases changed
    | some list =>
      exact .of_moves owned (owned.setElement
        (fun child same => admissible.lt child (by simp [handles, same])) changed)
  | removeAt list position => exact .of_moves owned (owned.removeAt list position 0).moves
  | replaceChild parent old new =>
    refine .getD owned fun after changed => ?_
    cases parent with
    | none => cases changed
    | some parent =>
      exact .of_moves owned (owned.replaceChild
        (fun child same => admissible.lt child (by simp [handles, same])) changed)
  | setChild parent position new =>
    refine .getD owned fun after changed => ?_
    cases parent with
    | none => cases changed
    | some parent =>
      exact .of_moves owned (owned.setChild
        (fun child same => admissible.lt child (by simp [handles, same])) changed)
  | combineWithComma left right => exact owned.combineWithComma admissible.lt
  | setScope node scope =>
    exact .getD owned fun after changed =>
      .of_respanned owned (Tree.setScope_respanned changed)
  | bindLookup node scopes =>
    refine .getD owned fun after changed => ?_
    obtain ⟨bound, binds, rfl⟩ := Option.map_eq_some_iff.mp changed
    exact .of_respanned owned (Tree.bindLookup_respanned binds)

namespace Tree

variable {allowed : Tree → Operation → Prop} {tree : Tree}

theorem owned_empty : ({} : Tree).Owned where
  held parent child := by simp [slots, get?, parentOf]
  dense list isList := by simp [family?, get?] at isList

theorem acyclic_empty : ({} : Tree).Acyclic := by
  intro id circle
  obtain ⟨parent, linked, -⟩ := circle.cases
  simp [parentOf, get?] at linked

theorem Reached.owned (reached : Reached allowed tree) : tree.Owned := by
  induction reached with
  | empty => exact owned_empty
  | @step tree operation _ admissible _ ih => exact (operation.apply_sound ih admissible).owned

theorem Reached.acyclic (reached : Reached allowed tree)
    (shallow : ∀ tree operation, allowed tree operation → tree.Shallow) : tree.Acyclic := by
  induction reached with
  | empty => exact acyclic_empty
  | @step tree operation reached admissible allows ih =>
    exact (operation.apply_sound reached.owned admissible).acyclic ih
      (shallow tree operation allows)

/-- Only a tree with more nodes than are followed can be too deep. -/
theorem Owned.shallow (owned : tree.Owned) (small : tree.size ≤ ancestorLimit) :
    tree.Shallow := by
  intro id nodes distinct all
  have inside : nodes ⊆ List.range tree.size := by
    intro above member
    obtain ⟨below, -, linked⟩ := Relation.TransGen.tail'_iff.mp (all above member)
    exact List.mem_range.mpr (owned.parent_lt linked)
  have bound := (List.subperm_of_subset distinct inside).length_le
  rw [List.length_range] at bound
  exact Nat.le_trans bound small

/-- Slots and parents tell the same story in every tree that calls can make. A slot holds
a node that is there, a list has no gaps, the node in a slot has the holder as its parent
and is in no other slot, and every node is in a slot of its parent. If no node is too deep
when a call is made, nothing is above itself. -/
theorem Reached.ownership (reached : Reached allowed tree) :
    (∀ parent position child, tree.slot (some parent) position = some child →
      child < tree.size) ∧
    (∀ list, (tree.family? (some list)).isSome → none ∉ tree.slots (some list)) ∧
    (∀ parent position child, tree.slot (some parent) position = some child →
      tree.parentOf (some child) = some parent) ∧
    (∀ parent other position place child, tree.slot (some parent) position = some child →
      tree.slot (some other) place = some child → parent = other ∧ position = place) ∧
    (∀ parent child, tree.parentOf (some child) = some parent →
      ∃ position, tree.slot (some parent) position = some child) ∧
    ((∀ tree operation, allowed tree operation → tree.Shallow) →
      ∀ id, ¬ tree.Above id id) := by
  have owned := reached.owned
  refine ⟨?_, owned.dense, fun _ _ _ => owned.parentOf_slot, ?_, ?_, reached.acyclic⟩
  · intro parent position child held
    exact child_lt (owned.parentOf_slot held)
  · intro parent other position place child first second
    have parents := owned.parentOf_slot second
    obtain rfl := Option.some.inj ((owned.parentOf_slot first).symm.trans parents)
    refine ⟨rfl, ?_⟩
    rw [slot_eq, Option.join_eq_some_iff] at first second
    have once := owned.held parent child
    have others := count_eraseIdx_add first (some child)
    rw [if_pos parents] at once
    rw [if_pos rfl, once] at others
    have gone : some child ∉ (tree.slots (some parent)).eraseIdx position :=
      List.count_eq_zero.mp (Nat.succ.inj others)
    by_contra apart
    exact gone (List.mem_eraseIdx_iff_getElem?.mpr ⟨place, Ne.symm apart, second⟩)
  · intro parent child held
    obtain ⟨position, inside, same⟩ := List.getElem_of_mem (owned.mem_slots_iff.mpr held)
    refine ⟨position, ?_⟩
    rw [slot_eq, List.getElem?_eq_getElem inside, same]
    rfl

/-- A call on a tree that is small enough. -/
theorem Reached.step_of_size {operation : Operation}
    (reached : Reached (fun tree _ => tree.Shallow) tree) (small : tree.size ≤ ancestorLimit)
    (admissible : operation.Admissible tree) :
    Reached (fun tree _ => tree.Shallow) (operation.apply tree) :=
  .step reached admissible (reached.owned.shallow small)

theorem Reached.applyAll {operations : List Operation}
    (reached : Reached (fun tree _ => tree.Shallow) tree)
    (admissible : Operation.AllAdmissible operations tree) :
    Reached (fun tree _ => tree.Shallow) (Operation.applyAll operations tree) := by
  induction operations generalizing tree with
  | nil => exact reached
  | cons operation later ih =>
    obtain ⟨small, here, behind⟩ := admissible
    exact ih (reached.step_of_size small here) behind

/-- Putting the right operand of a sum in the place of the left one. -/
theorem ownership_of_moved_operand :
    let left := (Operation.make (.lookup "a") .empty).apply {}
    let right := (Operation.make (.lookup "b") .empty).apply left
    let sum := (Operation.make (.binary (.punctuator .plus) (some 0) (some 1)) .empty).apply right
    let moved := (Operation.replaceChild (some 2) (some 0) (some 1)).apply sum
    (Reached (fun tree _ => tree.Shallow) moved ∧ moved.slots (some 2) = [some 1, none]) ∧
      (∀ parent position child, moved.slot (some parent) position = some child →
        moved.parentOf (some child) = some parent) ∧
      ∀ id, ¬ moved.Above id id := by
  intro left right sum moved
  have leftReached : Reached (fun tree _ => tree.Shallow) left :=
    .step_of_size .empty (by decide) (by decide)
  have rightReached : Reached (fun tree _ => tree.Shallow) right :=
    .step_of_size leftReached (by decide) (by decide)
  have sumReached : Reached (fun tree _ => tree.Shallow) sum :=
    .step_of_size rightReached (by decide) (by decide)
  have reached : Reached (fun tree _ => tree.Shallow) moved :=
    .step_of_size sumReached (by decide) (by decide)
  have ownership := reached.ownership
  exact ⟨⟨reached, by decide⟩, ownership.2.2.1, ownership.2.2.2.2.2 fun _ _ shallow => shallow⟩

end Tree

end ScriptSyntax
