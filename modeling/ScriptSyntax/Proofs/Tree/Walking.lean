import ScriptSyntax.Proofs.Tree.Operations
import ScriptSyntax.Proofs.Tree.Traversal
import Mathlib.Order.Interval.Set.Nat

/-! A walk of a tree without circles is a traversal. It is told to stop at a depth that no
branch of such a tree has: on the way down there are fewer and fewer nodes below. -/
namespace ScriptSyntax

variable {σ : Type}

namespace Visitor

/-- A visitor that keeps a record of what it meets and answers. -/
def recording (visitor : Visitor σ) : Visitor (σ × List Event) where
  enter tree id := fun (state, events) =>
    let (descends, state) := visitor.enter tree id state
    (descends, state, events ++ [.enter id descends])
  leave tree id := fun (state, events) =>
    (visitor.leave tree id state, events ++ [.leave id])

/-- What a visitor remembers changes with each event, and its answers are those it gives in
the state it is in by then. -/
inductive Meets (visitor : Visitor σ) (tree : Tree) : σ → List Event → σ → Prop where
  | done (state : σ) : Meets visitor tree state [] state
  | enter {id : NodeId} {descends : Bool} {state next final : σ} {events : List Event}
      (answer : visitor.enter tree id state = (descends, next))
      (later : Meets visitor tree next events final) :
      Meets visitor tree state (.enter id descends :: events) final
  | leave {id : NodeId} {state final : σ} {events : List Event}
      (later : Meets visitor tree (visitor.leave tree id state) events final) :
      Meets visitor tree state (.leave id :: events) final

variable {visitor : Visitor σ} {tree : Tree} {state middle final : σ}
  {events others : List Event} {id : NodeId} {descends : Bool}

theorem Meets.append (first : visitor.Meets tree state events middle)
    (second : visitor.Meets tree middle others final) :
    visitor.Meets tree state (events ++ others) final := by
  induction first with
  | done => exact second
  | enter answer _ ih => exact .enter answer (ih second)
  | leave _ ih => exact .leave (ih second)

theorem Meets.answered (meets : visitor.Meets tree state events final)
    (member : .enter id descends ∈ events) :
    ∃ state, (visitor.enter tree id state).1 = descends := by
  induction meets with
  | done => cases member
  | @enter top _ state _ _ _ answer _ ih =>
    rcases List.mem_cons.mp member with here | later
    · obtain ⟨rfl, rfl⟩ := Event.enter.inj here
      exact ⟨state, congrArg Prod.fst answer⟩
    · exact ih later
  | leave _ ih =>
    rcases List.mem_cons.mp member with here | later
    · cases here
    · exact ih later

end Visitor

namespace Tree

variable {tree : Tree} {id child parent root : NodeId} {depth other : Nat} {visitor : Visitor σ}
  {state : σ} {seen : List Event}

/-- The nodes below a node. -/
def below (tree : Tree) (id : NodeId) : Set NodeId := {low | tree.Above id low}

theorem below_subset (tree : Tree) (id : NodeId) : tree.below id ⊆ Set.Iio tree.size := by
  intro low higher
  obtain ⟨parent, linked, -⟩ := Above.cases higher
  exact child_lt linked

theorem below_finite (tree : Tree) (id : NodeId) : (tree.below id).Finite :=
  (Set.finite_Iio tree.size).subset (tree.below_subset id)

/-- How many nodes there are below a node. -/
noncomputable def weight (tree : Tree) (id : NodeId) : Nat := (tree.below id).ncard

theorem Acyclic.weight_lt (acyclic : tree.Acyclic)
    (linked : tree.parentOf (some child) = some parent) :
    tree.weight child < tree.weight parent := by
  refine Set.ncard_lt_ncard ⟨?_, ?_⟩ (tree.below_finite parent)
  · intro low higher
    exact Relation.TransGen.tail higher linked
  · intro all
    exact acyclic child (all (Above.of_parent linked))

theorem Acyclic.weight_lt_size (acyclic : tree.Acyclic) (present : id < tree.size) :
    tree.weight id < tree.size := by
  have fewer : tree.below id ⊂ Set.Iio tree.size :=
    ⟨tree.below_subset id, fun all => acyclic id (all present)⟩
  simpa [weight] using Set.ncard_lt_ncard fewer (Set.finite_Iio tree.size)

/-- Whatever passes from the children of a node to the node holds of every node. -/
theorem Acyclic.wellFounded (acyclic : tree.Acyclic) :
    WellFounded fun child parent => tree.parentOf (some child) = some parent :=
  Subrelation.wf acyclic.weight_lt (measure tree.weight).wf

theorem children_of_get? {node : Node} (found : tree.get? (some id) = some node) :
    tree.children (some id) = node.children := by
  rw [children, found]
  rfl

/-- A walk may go deeper than there are nodes below the one it starts from; how much deeper
makes no difference. -/
theorem walkFrom_deep (owned : tree.Owned) (acyclic : tree.Acyclic)
    (deep : tree.weight id < depth) (further : tree.weight id < other) :
    tree.walkFrom visitor depth id state = tree.walkFrom visitor other id state := by
  induction id using acyclic.wellFounded.induction generalizing depth other state with
  | h id ih =>
    obtain ⟨depth, rfl⟩ := Nat.exists_eq_add_one.mpr (Nat.zero_lt_of_lt deep)
    obtain ⟨other, rfl⟩ := Nat.exists_eq_add_one.mpr (Nat.zero_lt_of_lt further)
    simp only [walkFrom]
    cases found : tree.get? (some id) with
    | none => rfl
    | some node =>
      have same (state : σ) :
          node.children.foldl (fun state child => tree.walkFrom visitor depth child state) state =
            node.children.foldl (fun state child => tree.walkFrom visitor other child state)
              state := by
        refine List.foldl_ext _ _ _ fun state child member => ?_
        have linked := owned.mem_children_iff.mp (children_of_get? found ▸ member)
        have lighter := acyclic.weight_lt linked
        exact ih child linked (by omega) (by omega)
      simp only [same]

theorem walkFrom_eq_walk (owned : tree.Owned) (acyclic : tree.Acyclic) (present : id < tree.size)
    (deep : tree.size ≤ depth) :
    tree.walkFrom visitor depth id state = tree.walk (some id) visitor state :=
  walkFrom_deep owned acyclic (Nat.lt_of_lt_of_le (acyclic.weight_lt_size present) deep)
    (acyclic.weight_lt_size present)

/-- A walk meets a node, walks below its children if it is told to, and meets the node
again. -/
theorem walk_eq (owned : tree.Owned) (acyclic : tree.Acyclic) (present : id < tree.size)
    (visitor : Visitor σ) (state : σ) :
    tree.walk (some id) visitor state =
      visitor.leave tree id
        (if (visitor.enter tree id state).1 then
          (tree.children (some id)).foldl (fun state child => tree.walk (some child) visitor state)
            (visitor.enter tree id state).2
        else (visitor.enter tree id state).2) := by
  obtain ⟨node, found⟩ : ∃ node, tree.get? (some id) = some node :=
    ⟨_, Array.getElem?_eq_getElem present⟩
  have same (state : σ) :
      node.children.foldl (fun state child => tree.walkFrom visitor tree.size child state) state =
      node.children.foldl (fun state child => tree.walk (some child) visitor state) state := rfl
  rw [← walkFrom_eq_walk owned acyclic present (Nat.le_succ _)]
  simp only [walkFrom, found, same, children_of_get? found]

/-- The record of a walk over a row of nodes goes on with a traversal of it, if that is so
for each of them. -/
theorem Traverses.of_row (row : List Handle)
    (each : ∀ child, some child ∈ row → ∀ state seen, ∃ events,
      tree.Traverses [some child] events ∧
      visitor.Meets tree state events (tree.walk (some child) visitor state) ∧
      tree.walk (some child) visitor.recording (state, seen) =
        (tree.walk (some child) visitor state, seen ++ events)) (state : σ) (seen : List Event) :
    ∃ events, tree.Traverses row events ∧
      visitor.Meets tree state events
        (row.reduceOption.foldl (fun state child => tree.walk (some child) visitor state) state) ∧
      row.reduceOption.foldl (fun state child => tree.walk (some child) visitor.recording state)
          (state, seen) =
        (row.reduceOption.foldl (fun state child => tree.walk (some child) visitor state) state,
          seen ++ events) := by
  induction row generalizing state seen with
  | nil => exact ⟨[], .done, .done state, by simp⟩
  | cons handle row ih =>
    have later := fun child member => each child (List.mem_cons_of_mem handle member)
    cases handle with
    | none =>
      obtain ⟨events, traverses, meets, same⟩ := ih later state seen
      exact ⟨events, .absent traverses, meets, same⟩
    | some child =>
      obtain ⟨first, here, meets, met⟩ := each child List.mem_cons_self state seen
      obtain ⟨rest, behind, further, same⟩ :=
        ih later (tree.walk (some child) visitor state) (seen ++ first)
      refine ⟨first ++ rest, here.append behind, meets.append further, ?_⟩
      rw [List.reduceOption_cons_of_some, List.foldl_cons, List.foldl_cons, met, same,
        List.append_assoc]

/-- To keep a record changes nothing else, and the record is that of a traversal. -/
theorem walk_recording (owned : tree.Owned) (acyclic : tree.Acyclic) (present : id < tree.size)
    (visitor : Visitor σ) (state : σ) (seen : List Event) :
    ∃ events, tree.Traverses [some id] events ∧
      visitor.Meets tree state events (tree.walk (some id) visitor state) ∧
      tree.walk (some id) visitor.recording (state, seen) =
        (tree.walk (some id) visitor state, seen ++ events) := by
  induction id using acyclic.wellFounded.induction generalizing state seen with
  | h id ih =>
    obtain ⟨descends, entered, met⟩ : ∃ descends entered,
      visitor.enter tree id state = (descends, entered) := ⟨_, _, rfl⟩
    have recorded : visitor.recording.enter tree id (state, seen) =
        (descends, entered, seen ++ [.enter id descends]) := by
      simp only [Visitor.recording, met]
    rw [walk_eq owned acyclic present visitor.recording, walk_eq owned acyclic present visitor,
      recorded, met]
    cases descends with
    | false =>
      refine ⟨_, .skip present .done, .enter met (.leave (.done _)), ?_⟩
      simp [Visitor.recording]
    | true =>
      obtain ⟨inner, below, meets, same⟩ := Traverses.of_row (tree.slots (some id))
        (fun child member state seen =>
          have linked := owned.mem_slots_iff.mp member
          ih child linked (child_lt linked) state seen) entered (seen ++ [.enter id true])
      refine ⟨_, .descend present below .done, ?_, ?_⟩
      · rw [if_pos rfl, children_eq]
        exact .enter met (meets.append (.leave (.done _)))
      simp only [children_eq, if_true, same]
      simp [Visitor.recording]

/-- A walk comes to the same end however deep it is allowed to go, and its record is that of a
traversal with the answers its visitor gives. It begins and ends with the root, what is
entered is left again in pairs that do not cross, no node is entered twice, and those that
are entered are at or below the root and not below one that was refused. Siblings come in the
order of their slots. -/
theorem walk_traversal (owned : tree.Owned) (acyclic : tree.Acyclic) (present : root < tree.size)
    (visitor : Visitor σ) (state : σ) :
    ∃ final events,
      (∀ depth ≥ tree.size,
        tree.walkFrom visitor.recording depth root (state, []) = (final, events)) ∧
      tree.walk (some root) visitor.recording (state, []) = (final, events) ∧
      tree.walk (some root) visitor state = final ∧ visitor.Meets tree state events final ∧
      tree.Traverses [some root] events ∧
      (∃ descends inner, events = .enter root descends :: inner ++ [.leave root]) ∧
      Event.Balanced events ∧ (Event.enteredIn events).Nodup ∧
      (Event.leftIn events).Perm (Event.enteredIn events) ∧
      (∀ id, id ∈ Event.enteredIn events ↔ tree.Upward id root ∧
        ∀ above, tree.Above above id → tree.Upward above root → .enter above false ∉ events) ∧
      ∀ id descends, .enter id descends ∈ events →
        (Event.enteredIn events).filter (fun child => tree.parentOf (some child) = some id) =
          if descends then tree.children (some id) else [] := by
  obtain ⟨events, traverses, meets, recorded⟩ :=
    walk_recording owned acyclic present visitor state []
  rw [List.nil_append] at recorded
  refine ⟨_, events, fun depth deep => ?_, recorded, rfl, meets, traverses, traverses.bounds,
    traverses.balanced, traverses.once owned acyclic, traverses.balanced.left_perm,
    fun id => traverses.mem_iff_not_refused owned acyclic,
    fun id descends answered => traverses.siblings owned acyclic answered⟩
  rw [walkFrom_eq_walk owned acyclic present deep, recorded]

/-- A visitor that lets the walk descend from the first node it meets and no other. -/
theorem walk_traversal_of_negated_operand :
    let sum := Operation.applyAll [.make (.lookup "a") .empty,
      .make (.unary (.punctuator .minus) (some 0) false) .empty, .make (.lookup "b") .empty,
      .make (.binary (.punctuator .plus) (some 1) (some 2)) .empty] {}
    let visitor : Visitor Nat := { enter := fun _ _ met => (met == 0, met + 1) }
    let events : List Event :=
      [.enter 3 true, .enter 1 false, .leave 1, .enter 2 false, .leave 2, .leave 3]
    sum.Owned ∧ sum.Acyclic ∧ 3 < sum.size ∧
      sum.walk (some 3) visitor.recording (0, []) = (3, events) ∧ sum.Traverses [some 3] events ∧
      ∀ id, id ∈ Event.enteredIn events ↔ sum.Upward id 3 ∧
        ∀ above, sum.Above above id → sum.Upward above 3 → .enter above false ∉ events := by
  intro sum visitor events
  have reached : Reached (fun tree _ => tree.Shallow) sum := .applyAll .empty (by decide)
  have owned := reached.owned
  have acyclic := reached.acyclic fun _ _ shallow => shallow
  have present : 3 < sum.size := by decide
  have walked : sum.walk (some 3) visitor.recording (0, []) = (3, events) := by decide
  obtain ⟨final, met, -, recorded, -, -, traverses, -, -, -, -, entered, -⟩ :=
    walk_traversal owned acyclic present visitor 0
  obtain ⟨rfl, rfl⟩ := Prod.mk.inj (recorded.symm.trans walked)
  exact ⟨owned, acyclic, present, walked, traverses, entered⟩

end Tree

end ScriptSyntax
