import ScriptSyntax.Proofs.Tree.Refitting
import ScriptSyntax.Proofs.Tree.Replacement
import ScriptSyntax.Tree.Constancy

/-! Constancy is a matter of all that is below a node. To judge a node its children are judged
in turn, up to the first that is not constant; in a tree without circles that comes to an
end, and the node is constant just when nothing at or below it varies. -/
namespace ScriptSyntax

/-- The forms that no constant expression contains. -/
inductive Form.Varies : Form → Prop where
  | regularExpression (pattern flags : String) : Varies (.regularExpression pattern flags)
  | lookup (name : String) (field : Option FieldId) : Varies (.lookup name field)
  | function (name : Option String) (scope : Option ScopeId) : Varies (.function name scope)
  | parameter (name : String) (field : Option FieldId) : Varies (.parameter name field)
  | assignment {op : TokenKind} (assigns : op.isAssignmentOperator) : Varies (.binary op)
  | increment (afterOperand : Bool) : Varies (.unary (.punctuator .increment) afterOperand)
  | decrement (afterOperand : Bool) : Varies (.unary (.punctuator .decrement) afterOperand)
  | delete (afterOperand : Bool) : Varies (.unary (.word .deleteWord) afterOperand)
  | expressionStatement : Varies .expressionStatement
  | varStatement : Varies .varStatement
  | declaration (name : String) (field : Option FieldId) : Varies (.declaration name field)
  | block (scope : Option ScopeId) : Varies (.block scope)
  | forLoop : Varies .forLoop
  | forIn : Varies .forIn
  | whileLoop : Varies .whileLoop
  | doWhile : Varies .doWhile
  | switchStatement : Varies .switchStatement
  | switchCase : Varies .switchCase
  | program (scope : Option ScopeId) : Varies (.program scope)

namespace Form

variable {form : Form}

theorem constancy_eq_never_iff : form.constancy = .never ↔ form.Varies := by
  constructor
  · intro never
    cases form with
    | binary op =>
      simp only [constancy] at never
      split at never
      · next assigns => exact .assignment assigns
      · cases never
    | unary op afterOperand =>
      simp only [constancy] at never
      split at never
      · next writes =>
        rcases writes with rfl | rfl | rfl
        · exact .increment _
        · exact .decrement _
        · exact .delete _
      · cases never
    | _ => cases never <;> constructor
  · intro varies
    cases varies with
    | assignment assigns => exact if_pos assigns
    | _ => rfl

/-- What is constant by itself has no slots. -/
theorem Admits.eq_nil_of_always {slots : List Handle} (admits : form.Admits slots)
    (always : form.constancy = .always) : slots = [] := by
  cases form with
  | constant | propertyName => exact List.eq_nil_of_length_eq_zero (admits rfl)
  | binary | unary =>
    simp only [constancy] at always
    split at always <;> cases always
  | _ => cases always

end Form

namespace Tree

/-- How a node is judged, however deep the way down is. The children are judged in turn, and
those behind the first that is not constant not at all. -/
inductive Judged (tree : Tree) : NodeId → Bool → Prop where
  | absent {id : NodeId} (missing : tree.get? (some id) = none) : Judged tree id false
  | always {id : NodeId} {node : Node} (found : tree.get? (some id) = some node)
      (constant : node.form.constancy = .always) : Judged tree id true
  | never {id : NodeId} {node : Node} (found : tree.get? (some id) = some node)
      (varies : node.form.constancy = .never) : Judged tree id false
  | all {id : NodeId} {node : Node} (found : tree.get? (some id) = some node)
      (composed : node.form.constancy = .byChildren)
      (children : ∀ child ∈ node.children, Judged tree child true) : Judged tree id true
  | stops {id child : NodeId} {node : Node} {first rest : List NodeId}
      (found : tree.get? (some id) = some node) (composed : node.form.constancy = .byChildren)
      (split : node.children = first ++ child :: rest)
      (before : ∀ child ∈ first, Judged tree child true) (fails : Judged tree child false) :
      Judged tree id false

variable {tree before after : Tree} {id low parent child gone : NodeId} {answer other : Bool}
  {new holder : Handle} {depth : Nat}

/-- What the answer says of the node. -/
def Verdict (tree : Tree) (node : Node) (answer : Bool) : Prop :=
  match node.form.constancy with
  | .always => answer = true
  | .never => answer = false
  | .byChildren =>
    answer = true ∧ (∀ child ∈ node.children, tree.Judged child true) ∨
      answer = false ∧ ∃ child ∈ node.children, tree.Judged child false

theorem Judged.verdict {node : Node} (judged : tree.Judged id answer)
    (stands : tree.get? (some id) = some node) : tree.Verdict node answer := by
  unfold Verdict
  cases judged with
  | absent missing =>
    rw [missing] at stands
    cases stands
  | always found constancy | never found constancy =>
    obtain rfl := Option.some.inj (found.symm.trans stands)
    rw [constancy]
  | all found composed children =>
    obtain rfl := Option.some.inj (found.symm.trans stands)
    rw [composed]
    exact .inl ⟨rfl, children⟩
  | stops found composed split _ fails =>
    obtain rfl := Option.some.inj (found.symm.trans stands)
    rw [composed]
    exact .inr ⟨rfl, _, by simp [split], fails⟩

theorem Judged.false_of_absent (judged : tree.Judged id answer)
    (missing : tree.get? (some id) = none) : answer = false := by
  cases judged with
  | absent | never | stops => rfl
  | always found | all found =>
    rw [missing] at found
    cases found

/-- There is only one answer. -/
theorem Judged.unique (judged : tree.Judged id answer) (again : tree.Judged id other) :
    answer = other := by
  induction judged generalizing other with
  | absent missing => exact (again.false_of_absent missing).symm
  | always found constancy | never found constancy =>
    have verdict := again.verdict found
    rw [Verdict, constancy] at verdict
    exact verdict.symm
  | all found composed _ ih =>
    have verdict := again.verdict found
    rw [Verdict, composed] at verdict
    rcases verdict with ⟨rfl, -⟩ | ⟨-, child, member, fails⟩
    · rfl
    · cases ih child member fails
  | stops found composed split _ _ _ ih =>
    have verdict := again.verdict found
    rw [Verdict, composed] at verdict
    rcases verdict with ⟨-, children⟩ | ⟨rfl, -⟩
    · cases ih (children _ (by simp [split]))
    · rfl

/-- A judgement comes to an end within a depth that no branch has. -/
theorem judged_isConstantFrom (owned : tree.Owned) (acyclic : tree.Acyclic)
    (deep : tree.weight id < depth) : tree.Judged id (tree.isConstantFrom depth id) := by
  induction depth generalizing id with
  | zero => cases deep
  | succ depth ih =>
    unfold isConstantFrom
    cases found : tree.get? (some id) with
    | none => exact .absent found
    | some node =>
      have below (child : NodeId) (member : child ∈ node.children) :
          tree.Judged child (tree.isConstantFrom depth child) := by
        have linked := owned.mem_children_iff.mp (children_of_get? found ▸ member)
        exact ih (Nat.lt_of_lt_of_le (acyclic.weight_lt linked) (Nat.le_of_lt_succ deep))
      dsimp only
      cases constancy : node.form.constancy with
      | always => exact .always found constancy
      | never => exact .never found constancy
      | byChildren =>
        cases first : node.children.find? fun child => !tree.isConstantFrom depth child with
        | none =>
          have all : ∀ child ∈ node.children, tree.isConstantFrom depth child = true := by
            simpa using first
          rw [List.all_eq_true.mpr all]
          exact .all found constancy fun child member => all child member ▸ below child member
        | some child =>
          obtain ⟨fails, front, rest, split, before⟩ := List.find?_eq_some_iff_append.mp first
          have fails : tree.isConstantFrom depth child = false := by simpa using fails
          have stops : node.children.all (tree.isConstantFrom depth) = false :=
            List.all_eq_false.mpr ⟨child, by simp [split], by simp [fails]⟩
          rw [stops]
          refine .stops found constancy split (fun other member => ?_) (fails ▸ below child ?_)
          · have holds : tree.isConstantFrom depth other = true := by simpa using before other member
            exact holds ▸ below other (by simp [split, member])
          · simp [split]

theorem judged_iff (owned : tree.Owned) (acyclic : tree.Acyclic) (present : id < tree.size) :
    tree.Judged id answer ↔ tree.isConstant (some id) = answer := by
  have judged := judged_isConstantFrom owned acyclic (acyclic.weight_lt_size present)
  constructor
  · exact judged.unique
  · rintro rfl
    exact judged

theorem Judged.present (judged : tree.Judged id true) : id < tree.size := by
  by_contra outside
  cases judged.false_of_absent (get?_eq_none (Nat.le_of_not_lt outside))

/-- In any tree, one that is found constant is judged so. -/
theorem judged_of_isConstantFrom (constant : tree.isConstantFrom depth id = true) :
    tree.Judged id true := by
  induction depth generalizing id with
  | zero => cases constant
  | succ depth ih =>
    unfold isConstantFrom at constant
    split at constant
    · cases constant
    · next node found =>
      split at constant
      · next always => exact .always found always
      · cases constant
      · next composed =>
        exact .all found composed fun child member => ih (List.all_eq_true.mp constant child member)

/-- A node that varies whatever its children are. -/
def Varies (tree : Tree) (id : NodeId) : Prop :=
  ∃ form, tree.form? (some id) = some form ∧ form.Varies

/-- What is below a node is at or below one of its children. -/
theorem Above.by_child (higher : tree.Above id low) :
    ∃ child, tree.parentOf (some child) = some id ∧ tree.Upward low child := by
  rcases Relation.TransGen.tail'_iff.mp higher with ⟨child, rest, linked⟩
  refine ⟨child, linked, ?_⟩
  exact (Relation.reflTransGen_iff_eq_or_transGen.mp rest)

theorem Upward.lift (linked : tree.parentOf (some low) = some id) (upward : tree.Upward id parent) :
    tree.Upward low parent := by
  rcases upward with rfl | higher
  · exact .inr (.of_parent linked)
  · exact .inr (higher.lift linked)

theorem Upward.trans (first : tree.Upward low id) (second : tree.Upward id parent) :
    tree.Upward low parent := by
  rcases first with rfl | first
  · exact second
  · rcases second with rfl | second
    · exact .inr first
    · exact .inr (Relation.TransGen.trans first second)

theorem varies_of_get? {node : Node} (found : tree.get? (some id) = some node) :
    tree.Varies id ↔ node.form.constancy = .never := by
  rw [Form.constancy_eq_never_iff, Varies, form?, found]
  simp

/-- Nothing is below a node that is constant by itself. -/
theorem Owned.not_above_of_always {node : Node} (owned : tree.Owned)
    (found : tree.get? (some id) = some node) (always : node.form.constancy = .always) :
    ¬ tree.Above id low := by
  intro higher
  obtain ⟨child, linked, -⟩ := higher.by_child
  have member := owned.mem_slots_iff.mpr linked
  rw [slots_of_get? found, Form.Admits.eq_nil_of_always node.admits always] at member
  cases member

/-- A node that is judged constant has nothing at or below it that varies. -/
theorem Judged.not_varies (judged : tree.Judged id true) (owned : tree.Owned)
    (upward : tree.Upward low id) : ¬ tree.Varies low := by
  generalize same : true = answer at judged
  induction judged with
  | absent | never | stops => cases same
  | always found constant =>
    rcases upward with rfl | higher
    · rw [varies_of_get? found, constant]
      exact Constancy.noConfusion
    · exact absurd higher (owned.not_above_of_always found constant)
  | all found composed _ ih =>
    rcases upward with rfl | higher
    · rw [varies_of_get? found, composed]
      exact Constancy.noConfusion
    · obtain ⟨child, linked, upward⟩ := higher.by_child
      exact ih child (children_of_get? found ▸ owned.mem_children_iff.mpr linked) upward rfl

theorem judged_true_iff (owned : tree.Owned) (acyclic : tree.Acyclic) (present : id < tree.size) :
    tree.Judged id true ↔ ∀ low, tree.Upward low id → ¬ tree.Varies low := by
  refine ⟨fun judged low => judged.not_varies owned, fun free => ?_⟩
  induction id using acyclic.wellFounded.induction with
  | h id ih =>
    obtain ⟨node, found⟩ : ∃ node, tree.get? (some id) = some node :=
      ⟨_, Array.getElem?_eq_getElem present⟩
    cases constancy : node.form.constancy with
    | always => exact .always found constancy
    | never => exact absurd ((varies_of_get? found).mpr constancy) (free id (.inl rfl))
    | byChildren =>
      refine .all found constancy fun child member => ?_
      have linked := owned.mem_children_iff.mp (children_of_get? found ▸ member)
      exact ih child linked (child_lt linked) fun low upward => free low (upward.of_parent linked)

/-- The new child is neither the parent nor above it. -/
def Permitted (tree : Tree) (parent : NodeId) (new : Handle) : Prop :=
  ∀ child, new = some child → ¬ tree.Upward parent child

namespace Replaced

theorem link (replaced : Replaced before after parent gone new) {above : NodeId}
    (linked : after.parentOf (some id) = some above) :
    before.parentOf (some id) = some above ∨ new = some id ∧ above = parent := by
  rw [replaced.parentOf] at linked
  split at linked
  · cases linked
  split at linked
  · next same => exact .inr ⟨same, (Option.some.inj linked).symm⟩
  · exact .inl linked

/-- What is above a node now was so before, or the node has come in with the new child. -/
theorem above (replaced : Replaced before after parent gone new)
    (permitted : before.Permitted parent new) (higher : after.Above id low) :
    before.Above id low ∨
      ∃ child, new = some child ∧ before.Upward low child ∧ before.Upward parent id := by
  cases new with
  | none => exact .inl (higher.mono fun _ _ linked => (replaced.link linked).resolve_right nofun)
  | some child =>
    have apart := not_or.mp (permitted child rfl)
    refine (higher.of_link (fun _ _ linked => (replaced.link linked).imp_right
      fun ⟨same, top⟩ => ⟨(Option.some.inj same).symm, top⟩) ⟨Ne.symm apart.1, apart.2⟩).imp_right ?_
    rintro ⟨under, upper⟩
    exact ⟨child, rfl, under.imp_left Eq.symm, upper⟩

theorem acyclic (replaced : Replaced before after parent gone new) (acyclic : before.Acyclic)
    (permitted : before.Permitted parent new) : after.Acyclic := by
  intro id circle
  rcases replaced.above permitted circle with old | ⟨child, rfl, under, upper⟩
  · exact acyclic id old
  · exact permitted child rfl (upper.trans under)

theorem varies_iff (replaced : Replaced before after parent gone new) :
    after.Varies low ↔ before.Varies low := by
  rw [Varies, Varies, replaced.forms.form?]

/-- Nothing that varies comes in with a child that is constant. -/
theorem judged (replaced : Replaced before after parent gone new) (owned : before.Owned)
    (acyclic : before.Acyclic) (permitted : before.Permitted parent new)
    (constant : before.Judged id true)
    (comes : ∀ child, new = some child → before.Judged child true) : after.Judged id true := by
  have present := Nat.lt_of_lt_of_eq constant.present replaced.size.symm
  rw [judged_true_iff replaced.owned (replaced.acyclic acyclic permitted) present]
  intro low upward
  rw [replaced.varies_iff]
  have old : before.Upward low id ∨ ∃ child, new = some child ∧ before.Upward low child := by
    rcases upward with rfl | higher
    · exact .inl (.inl rfl)
    · exact (replaced.above permitted higher).imp .inr fun ⟨child, same, under, _⟩ =>
        ⟨child, same, under⟩
  rcases old with under | ⟨child, same, under⟩
  · exact constant.not_varies owned under
  · exact (comes child same).not_varies owned under

/-- The way down from a node to the parent is still there, if the new child is not on it. -/
theorem upward (replaced : Replaced before after parent gone new) (acyclic : before.Acyclic)
    (held : before.parentOf (some gone) = some parent) (upward : before.Upward parent id)
    (outside : ∀ child, new = some child → ¬ before.Upward child id) :
    after.Upward parent id := by
  have linked {low above : NodeId} (upper : before.Upward parent low)
      (free : ∀ child, new = some child → ¬ before.Upward child above)
      (linked : before.parentOf (some low) = some above) :
      after.parentOf (some low) = some above := by
    have stays : low ≠ gone := by
      rintro rfl
      exact acyclic.not_upward_of_parent held upper
    have old : new ≠ some low := fun same => free low same (.inr (.of_parent linked))
    rw [replaced.parentOf, if_neg stays, if_neg old, linked]
  rcases upward with rfl | higher
  · exact .inl rfl
  induction higher with
  | single link => exact .inr (.of_parent (linked (.inl rfl) outside link))
  | tail lower link ih =>
    have free := fun child same under => outside child same (Upward.of_parent under link)
    exact (ih free).of_parent (linked (.inr lower) outside link)

/-- Where a child that is constant comes to be below itself, no judgement ends on the circle:
all that it meets is constant as far as can be seen. -/
theorem judged_off_circle (replaced : Replaced before after parent gone (some child))
    (owned : before.Owned) (constant : before.Judged child true)
    (judged : after.Judged id answer) (under : before.Upward id child) :
    answer = true ∧ ∀ low, after.Upward low id → ¬ after.Above low low := by
  have below {id lower : NodeId} (under : before.Upward id child)
      (linked : after.parentOf (some lower) = some id) : before.Upward lower child := by
    rcases replaced.link linked with old | ⟨same, -⟩
    · exact .lift old under
    · exact .inl (Option.some.inj same)
  induction judged with
  | @absent id missing =>
    have present : id < after.size := by
      rw [replaced.size]
      rcases under with rfl | higher
      · exact constant.present
      · obtain ⟨_, linked, -⟩ := higher.cases
        exact child_lt linked
    rw [get?, Option.bind_some, Array.getElem?_eq_none_iff] at missing
    exact absurd present (Nat.not_lt_of_le missing)
  | always found always =>
    refine ⟨rfl, fun low upward circle => ?_⟩
    have bare {low : NodeId} : ¬ after.Above _ low :=
      replaced.owned.not_above_of_always found always
    rcases upward with rfl | higher
    · exact bare circle
    · exact bare higher
  | never found varies =>
    refine absurd (replaced.varies_iff.mp ((varies_of_get? found).mpr varies)) ?_
    exact constant.not_varies owned under
  | @all id _ found _ _ ih =>
    refine ⟨rfl, fun low upward circle => ?_⟩
    -- from a node on the circle the way leads to a child that is on it as well
    obtain ⟨lower, linked, further⟩ : ∃ lower, after.parentOf (some lower) = some id ∧
        after.Upward low lower := by
      rcases upward with rfl | higher
      · exact circle.by_child
      · exact higher.by_child
    have member := children_of_get? found ▸ replaced.owned.mem_children_iff.mpr linked
    exact (ih lower member (below under linked)).2 low further circle
  | stops found _ split _ _ _ ih =>
    have linked := replaced.owned.mem_children_iff.mp
      ((children_of_get? found).symm ▸ split ▸ List.mem_append_right _ List.mem_cons_self)
    cases (ih (below under linked)).1

end Replaced

/-- A call to replace a child is refused, is for the child itself, or puts the new child into a
parent that it is not found to enclose. -/
theorem Owned.replaceChild_apply (owned : tree.Owned) (holder : Handle) (gone : NodeId)
    (present : ∀ child, new = some child → child < tree.size) :
    let after := (Operation.replaceChild holder (some gone) new).apply tree
    (tree.replaceChild holder (some gone) new = none ∨ some gone = new) ∧ after = tree ∨
      ∃ parent, holder = some parent ∧ tree.parentOf (some gone) = some parent ∧
        tree.encloses new parent = false ∧ Replaced tree after parent gone new := by
  intro after
  cases result : tree.replaceChild holder (some gone) new with
  | none => exact .inl ⟨.inl rfl, Operation.apply_of_refused result⟩
  | some changed =>
    obtain rfl : after = changed := by simp only [after, Operation.apply, result, Option.getD_some]
    obtain ⟨parent, old, rfl, there, member, outcome⟩ := replaceChild_cases result
    obtain rfl := Option.some.inj there
    by_cases distinct : some gone = new
    · rcases outcome with ⟨-, unchanged⟩ | ⟨none, -⟩ | ⟨child, -, -, given, apart, -⟩
      · exact .inl ⟨.inr distinct, unchanged⟩
      · cases distinct.trans none
      · exact absurd (Option.some.inj (distinct.trans given)) apart
    · refine .inr ⟨parent, rfl, owned.mem_slots_iff.mp member, ?_,
        owned.replaceChild_replaced present distinct result⟩
      rcases outcome with ⟨same, -⟩ | ⟨rfl, -⟩ | ⟨child, -, -, rfl, -, apart, -⟩
      · exact absurd same distinct
      · exact not_encloses_none tree parent
      · exact apart

/-- The call puts a node below itself: it is above the parent, but further up than the way is
followed. -/
def ClosesCircle (tree : Tree) (holder : Handle) (gone : NodeId) (new : Handle) : Prop :=
  ∃ parent child, holder = some parent ∧ tree.parentOf (some gone) = some parent ∧
    new = some child ∧ tree.Above child parent ∧ tree.encloses (some child) parent = false

theorem Shallow.not_closesCircle (shallow : tree.Shallow) : ¬ tree.ClosesCircle holder gone new := by
  rintro ⟨parent, child, -, -, -, higher, apart⟩
  exact not_above_of_not_encloses (shallow parent) apart higher

/-- A node around the place of a child that is put there and comes to be below itself is on the
circle. -/
theorem ClosesCircle.not_judged (closes : tree.ClosesCircle holder gone new) (owned : tree.Owned)
    (acyclic : tree.Acyclic) (below : tree.Above id gone)
    (comes : ∀ child, new = some child → tree.Judged child true ∧ ¬ tree.Upward child id) :
    ¬ ((Operation.replaceChild holder (some gone) new).apply tree).Judged id answer := by
  intro judged
  obtain ⟨parent, child, rfl, held, rfl, higher, apart⟩ := closes
  obtain ⟨constant, outside⟩ := comes child rfl
  have distinct : gone ≠ child := by
    rintro rfl
    exact acyclic parent (Relation.TransGen.tail higher held)
  obtain ⟨refused | same, -⟩ | ⟨other, same, -, -, replaced⟩ :=
    owned.replaceChild_apply (some parent) gone fun child same => (comes child same).1.present
  · have carried := owned.replaceChild_isSome_iff.mpr
      ⟨parent, gone, rfl, rfl, owned.mem_slots_iff.mpr held, .inr apart⟩
    rw [refused] at carried
    cases carried
  · exact distinct (Option.some.inj same)
  · obtain rfl := Option.some.inj same
    generalize (Operation.replaceChild (some parent) (some gone) (some child)).apply tree = after
      at judged replaced
    obtain ⟨next, linked, upper⟩ := Above.cases below
    obtain rfl := Option.some.inj (held.symm.trans linked)
    have under := (Upward.connected upper (.inr higher)).resolve_right outside
    have replaces : ∀ old, some gone = some old → tree.parentOf (some old) = some parent :=
      fun _ same => same ▸ held
    have circle : after.Above child child := by
      refine higher.closes acyclic replaces fun id => ?_
      rw [replaced.parentOf]
      simp only [Option.some.injEq, eq_comm]
    have installed : after.parentOf (some child) = some parent := by
      rw [replaced.parentOf, if_neg distinct.symm, if_pos rfl]
    have within : after.Upward child id :=
      .lift installed (replaced.upward acyclic held upper fun _ same => (comes _ same).2)
    exact (replaced.judged_off_circle owned constant judged under).2 child within circle

/-- Otherwise a constant node stays so when a node below it makes way for a constant one, or for
none. -/
theorem replaceChild_judged (owned : tree.Owned) (acyclic : tree.Acyclic)
    (constant : tree.Judged id true) (comes : ∀ child, new = some child → tree.Judged child true)
    (harmless : ¬ tree.ClosesCircle holder gone new) :
    let after := (Operation.replaceChild holder (some gone) new).apply tree
    after.Owned ∧ after.Acyclic ∧ after.Judged id true := by
  intro after
  obtain ⟨-, same⟩ | ⟨parent, rfl, held, apart, replaced⟩ :=
    owned.replaceChild_apply holder gone fun child same => (comes child same).present
  · rw [show after = tree from same]
    exact ⟨owned, acyclic, constant⟩
  · have permitted : tree.Permitted parent new := by
      rintro child rfl (same | higher)
      · exact not_encloses_self_ne apart same
      · exact harmless ⟨parent, child, rfl, held, rfl, higher, apart⟩
    exact ⟨replaced.owned, replaced.acyclic acyclic permitted,
      replaced.judged owned acyclic permitted constant comes⟩

/-- Every node is judged constant or not, and is so just when nothing at or below it varies.
A node that is constant stays so when one that is below it makes way for a constant node from
elsewhere, or for none. But a node further up than the way is followed can be put below itself
so, and then no judgement of the node comes to an end. -/
theorem constancy_of_subtree (owned : tree.Owned) (acyclic : tree.Acyclic)
    (present : id < tree.size) :
    (∀ answer, tree.Judged id answer ↔ tree.isConstant (some id) = answer) ∧
    (tree.isConstant (some id) = true ↔
      ∀ low form, tree.Upward low id → tree.form? (some low) = some form → ¬ form.Varies) ∧
    (tree.isConstant (some id) = true → ∀ holder gone new, tree.Above id gone →
      (∀ child, new = some child →
        tree.isConstant (some child) = true ∧ ¬ tree.Upward child id) →
      let after := (Operation.replaceChild holder (some gone) new).apply tree
      (¬ tree.ClosesCircle holder gone new →
        after.Judged id true ∧ after.isConstant (some id) = true) ∧
      (tree.ClosesCircle holder gone new → ∀ answer, ¬ after.Judged id answer) ∧
      (tree.Shallow → ¬ tree.ClosesCircle holder gone new)) := by
  refine ⟨fun answer => judged_iff owned acyclic present, ?_,
    fun constant holder gone new below comes => ⟨fun harmless => ?_, fun closes answer => ?_,
      Shallow.not_closesCircle⟩⟩
  · rw [← judged_iff owned acyclic present, judged_true_iff owned acyclic present]
    simp only [Varies, not_exists, not_and]
    exact forall_congr' fun low => forall_comm
  · obtain ⟨still, free, judged⟩ := replaceChild_judged owned acyclic
      ((judged_iff owned acyclic present).mpr constant)
      (fun child same => judged_of_isConstantFrom (comes child same).1) harmless
    exact ⟨judged, (judged_iff still free judged.present).mp judged⟩
  · exact closes.not_judged owned acyclic below fun child same =>
      (comes child same).imp_left judged_of_isConstantFrom

/-- An operand makes way for another literal. -/
theorem constancy_of_changed_operand :
    let negation := Operation.applyAll [.make (.constant .null) .empty,
      .make (.unary (.punctuator .minus) (some 0) false) .empty,
      .make (.constant (.boolean true)) .empty] {}
    let changed := (Operation.replaceChild (some 1) (some 0) (some 2)).apply negation
    (negation.Owned ∧ negation.Acyclic ∧ 1 < negation.size) ∧
      negation.isConstant (some 1) = true ∧ changed.slots (some 1) = [some 2] ∧
      changed.isConstant (some 1) = true := by
  intro negation changed
  have reached : Reached (fun tree _ => tree.Shallow) negation := .applyAll .empty (by decide)
  have acyclic := reached.acyclic fun _ _ shallow => shallow
  have constant : negation.isConstant (some 1) = true := by decide
  obtain ⟨-, -, kept⟩ := constancy_of_subtree reached.owned acyclic
    (show 1 < negation.size by decide)
  have below : negation.Above 1 0 := .of_parent (by decide)
  obtain ⟨stays, -, sees⟩ := kept constant (some 1) 0 (some 2) below (by
    rintro child ⟨⟩
    refine ⟨by decide, ?_⟩
    rintro (same | higher)
    · cases same
    · exact not_above_of_root rfl higher)
  exact ⟨⟨reached.owned, acyclic, by decide⟩, constant, by decide,
    (stays (sees (reached.owned.shallow (by decide)))).2⟩

/-- Negations around each other; the innermost has no operand. -/
def tower (depth : Nat) : Tree where
  nodes := .ofFn fun id : Fin (depth + 1) => {
    form := .unary (.punctuator .minus) false
    slots := [if id.val = 0 then none else some (id.val - 1)]
    span := .empty
    parent := if id.val < depth then some (id.val + 1) else none
    admits := fun _ => rfl }

section Tower

variable {depth : Nat}

theorem tower_get? (depth id : Nat) : (tower depth).get? (some id) =
    if id < depth + 1 then some {
      form := .unary (.punctuator .minus) false
      slots := [if id = 0 then none else some (id - 1)]
      span := .empty
      parent := if id < depth then some (id + 1) else none
      admits := fun _ => rfl }
    else none :=
  Array.getElem?_ofFn.trans (by split <;> rfl)

theorem tower_size (depth : Nat) : (tower depth).size = depth + 1 := Array.size_ofFn

theorem tower_parentOf (depth id : Nat) :
    (tower depth).parentOf (some id) = if id < depth then some (id + 1) else none := by
  rw [parentOf, tower_get?]
  split
  · rfl
  · next outside => rw [if_neg (by omega)]; rfl

theorem tower_owned (depth : Nat) : (tower depth).Owned where
  held parent child := by
    rw [slots, tower_get?, tower_parentOf]
    cases parent with
    | zero => simp
    | succ parent =>
      by_cases same : parent = child
      · subst same
        split <;> simp_all
      · split <;> simp [same, Ne.symm same]
  dense list isList := by
    rw [family?, tower_get?] at isList
    split at isList <;> cases isList

theorem tower_judged (inside : id < depth + 1) : (tower depth).Judged id true := by
  refine (judged_true_iff (tower_owned depth) (nest_acyclic (tower_parentOf depth)) ?_).mpr
    fun low _ => ?_
  · rwa [tower_size]
  · rintro ⟨form, found, varies⟩
    rw [form?, tower_get?] at found
    split at found
    · cases found
      cases varies
    · cases found

end Tower

/-- A negation that is deep enough in others can be put in the place of the innermost. -/
theorem not_judged_of_deep_tower :
    ¬ ∀ (tree : Tree) (holder : Handle) (id gone : NodeId) (new : Handle),
      tree.Owned → tree.Acyclic → id < tree.size →
      tree.isConstant (some id) = true → tree.Above id gone →
      (∀ child, new = some child →
        tree.isConstant (some child) = true ∧ ¬ tree.Upward child id) →
      ((Operation.replaceChild holder (some gone) new).apply tree).Judged id true := by
  intro all
  let tree := tower 10002
  have owned : tree.Owned := tower_owned 10002
  have parents := tower_parentOf 10002
  have acyclic : tree.Acyclic := nest_acyclic parents
  have constant {id : Nat} (inside : id < 10003) : tree.isConstant (some id) = true :=
    (judged_iff owned acyclic (inside.trans_eq (tower_size 10002).symm)).mp (tower_judged inside)
  have higher : tree.Above 10002 1 := above_iff.mpr ⟨10000, nest_iterate parents (by decide)⟩
  have far : tree.encloses (some 10002) 1 = false := by
    rw [Bool.eq_false_iff, Ne, encloses_iff]
    rintro (same | near)
    · cases same
    · obtain ⟨steps, few, reach⟩ := mem_ancestors_iff.mp near
      have followed : steps < 10000 := few
      have there : 10002 = 1 + (steps + 1) := nest_iterate_eq parents reach
      omega
  have held : tree.parentOf (some 0) = some 1 := (parents 0).trans (if_pos (by decide))
  have below : tree.Above 1 0 := .of_parent held
  have outside : ¬ tree.Upward 10002 1 := by
    rintro (same | further)
    · cases same
    · exact acyclic 1 (Relation.TransGen.trans higher further)
  have closes : tree.ClosesCircle (some 1) 0 (some 10002) :=
    ⟨1, 10002, rfl, held, rfl, higher, far⟩
  have comes : ∀ child, some 10002 = some child →
      tree.Judged child true ∧ ¬ tree.Upward child 1 := by
    rintro child ⟨⟩
    exact ⟨tower_judged (by decide), outside⟩
  have present : 1 < tree.size := Nat.lt_of_lt_of_eq (by decide) (tower_size 10002).symm
  refine closes.not_judged owned acyclic below comes <|
    all tree (some 1) 1 0 (some 10002) owned acyclic present (constant (by decide)) below ?_
  rintro child ⟨⟩
  exact ⟨constant (by decide), outside⟩

end Tree

end ScriptSyntax
