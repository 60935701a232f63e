import ScriptSyntax.Proofs.Tree.Pruning

/-! An editor that leaves all nodes in their slots. Its walk is the traversal of the tree as it
was, and what it does is what it makes of the events, one after another. -/
namespace ScriptSyntax

variable {σ : Type}

open Event

namespace Editor

/-- What an editor makes of an event. -/
def meet (editor : Editor σ) (editing : Editing σ) : Event → Editing σ
  | .enter id _ => (editor.enter id editing).2
  | .leave id => editor.leave id editing

/-- An editor that changes neither slots nor parents, and whose answers depend on the node
alone. -/
structure Steady (editor : Editor σ) (descends : NodeId → Bool) : Prop where
  answers : ∀ id editing, (editor.enter id editing).1 = descends id
  enters : ∀ id editing, Tree.Respanned editing.tree (editor.enter id editing).2.tree
  leaves : ∀ id editing, Tree.Respanned editing.tree (editor.leave id editing).tree

theorem Steady.foldl_meet {editor : Editor σ} {descends : NodeId → Bool}
    (steady : editor.Steady descends) (events : List Event) (editing : Editing σ) :
    Tree.Respanned editing.tree (events.foldl editor.meet editing).tree := by
  induction events generalizing editing with
  | nil => exact .refl _
  | cons event events ih =>
    refine Tree.Respanned.trans ?_ (ih _)
    cases event with
    | enter id _ => exact steady.enters id editing
    | leave id => exact steady.leaves id editing

end Editor

namespace Tree

variable {editor : Editor σ} {descends : NodeId → Bool} {before : Tree} {row : List Handle}
  {events inner others : List Event} {id : NodeId}

/-- The walk of a node comes to what the editor makes of these events. -/
def WalksNode (before : Tree) (editor : Editor σ) (id : NodeId) (events : List Event) : Prop :=
  ∀ editing, Respanned before editing.tree → ∀ steps ≥ before.stepsFor events,
    editFrom editor steps id editing = some (events.foldl editor.meet editing)

/-- The same of the slots of a node that are behind those the walk has passed. -/
def WalksRow (before : Tree) (editor : Editor σ) (row : List Handle) (events : List Event) :
    Prop :=
  ∀ (id : NodeId) (passed : List Handle) (editing : Editing σ),
    before.slots (some id) = passed ++ row → Respanned before editing.tree →
    ∀ steps ≥ row.length + 1 + before.stepsFor events,
      editSlots editor steps id passed.length editing = some (events.foldl editor.meet editing)

theorem WalksRow.done : WalksRow before editor [] [] := by
  intro id passed editing slots respanned steps enough
  obtain ⟨steps, rfl⟩ := Nat.exists_eq_add_one.mpr (Nat.zero_lt_of_lt enough)
  refine editSlots_done ?_
  rw [respanned.slots, slots, List.append_nil]

theorem WalksRow.absent (later : WalksRow before editor row events) :
    WalksRow before editor (none :: row) events := by
  intro id passed editing slots respanned steps enough
  rw [List.length_cons] at enough
  obtain ⟨steps, rfl⟩ := Nat.exists_eq_add_one.mpr (show 0 < steps by omega)
  have held := (respanned.slots _).trans slots
  have split : before.slots (some id) = passed ++ [none] ++ row := by simp [slots]
  rw [editSlots_step rfl held ((respanned.slots _).trans split) (.inl rfl)]
  exact later id (passed ++ [none]) editing split respanned steps (by omega)

theorem WalksRow.present (steady : editor.Steady descends)
    (here : WalksNode before editor id events) (later : WalksRow before editor row others) :
    WalksRow before editor (some id :: row) (events ++ others) := by
  intro parent passed editing slots respanned steps enough
  rw [List.length_cons, stepsFor_append] at enough
  obtain ⟨steps, rfl⟩ := Nat.exists_eq_add_one.mpr (show 0 < steps by omega)
  have further := respanned.trans (steady.foldl_meet events editing)
  have split : before.slots (some parent) = passed ++ [some id] ++ row := by simp [slots]
  refine (editSlots_step ?_ ((respanned.slots _).trans slots) ((further.slots _).trans split)
    (.inl rfl)).trans ?_
  · exact here editing respanned steps (by omega)
  · rw [List.foldl_append]
    exact later parent (passed ++ [some id]) _ split further steps (by omega)

theorem WalksNode.skip (steady : editor.Steady descends) (present : id < before.size)
    (refused : descends id = false) :
    WalksNode before editor id [.enter id false, .leave id] := by
  intro editing respanned steps enough
  have positive : 0 < steps := Nat.lt_of_lt_of_le (by simp [stepsFor]) enough
  obtain ⟨steps, rfl⟩ := Nat.exists_eq_add_one.mpr positive
  rw [editFrom_eq (Nat.lt_of_lt_of_eq present respanned.size.symm), steady.answers, refused]
  rfl

theorem WalksNode.descend (steady : editor.Steady descends) (present : id < before.size)
    (allowed : descends id = true)
    (below : WalksRow before editor (before.slots (some id)) inner) :
    WalksNode before editor id (.enter id true :: inner ++ [.leave id]) := by
  intro editing respanned steps enough
  have total : before.stepsFor (.enter id true :: inner ++ [.leave id]) =
      (before.slots (some id)).length + 2 + before.stepsFor inner := by
    rw [stepsFor, enteredIn_alone, List.map_cons, List.sum_cons, stepsFor]
  obtain ⟨steps, rfl⟩ := Nat.exists_eq_add_one.mpr (show 0 < steps by omega)
  have inside := below id [] (editor.enter id editing).2 rfl
    (respanned.trans (steady.enters id editing)) steps (by omega)
  rw [editFrom_eq (Nat.lt_of_lt_of_eq present respanned.size.symm), steady.answers, allowed,
    if_pos rfl]
  rw [List.length_nil] at inside
  rw [inside, List.foldl_append]
  rfl

end Tree

end ScriptSyntax
