import ScriptSyntax.Proofs.Tree.Refitting

/-! What making nodes keeps. Every constructor makes lists, to which nodes are appended that
nothing is above yet, and nodes that take their children one after another; what these two
keep, every constructor keeps. -/
namespace ScriptSyntax.Tree

variable {tree : Tree} {law : Span → Prop} {list child id : NodeId}

theorem spanOf_push (node : Node) (inside : id < tree.size) :
    (tree.push node).spanOf id = tree.spanOf id := by
  refine spanOf_congr ?_
  rw [span?, span?, get?_push, if_neg (Nat.ne_of_lt inside)]

theorem SpansAre.push (lawful : tree.SpansAre law) {node : Node} (holds : law node.span) :
    (tree.push node).SpansAre law := by
  intro handle span found
  cases handle with
  | none => cases found
  | some id =>
    rw [span?, get?_push] at found
    split at found
    · exact Option.some.inj found ▸ holds
    · exact lawful _ span found

/-- Appending to a list that nothing is above keeps whatever is kept when one node is. -/
theorem Owned.appendAll_induct {motive : Tree → Prop} (owned : tree.Owned) (acyclic : tree.Acyclic)
    (root : tree.parentOf (some list) = none) {nodes : List Handle}
    (present : ∀ child, some child ∈ nodes → child < tree.size) (begins : motive tree)
    (appends : ∀ before after node, before.Owned → before.Acyclic → before.ShallowAt list →
      (∀ child, node = some child → child < before.size) → motive before →
      before.append (some list) node = some after → after.parentOf (some list) = none →
      motive after) :
    motive (tree.appendAll (some list) nodes) := by
  induction nodes generalizing tree with
  | nil => exact begins
  | cons node rest ih =>
    have shallow : tree.ShallowAt list := shallowAt_of_root fun parent linked => by
      rw [root] at linked
      cases linked
    have here : ∀ child, node = some child → child < tree.size :=
      fun child same => present child (by simp [same])
    have others : ∀ child, some child ∈ rest → child < tree.size :=
      fun child member => present child (List.mem_cons_of_mem _ member)
    unfold Tree.appendAll
    rw [List.foldl_cons]
    cases appended : tree.append (some list) node with
    | none => exact ih owned acyclic root others begins
    | some next =>
      have moves := owned.insert here appended
      obtain ⟨still, size, -⟩ := moves.owned owned
      have circleless := (moves.acyclic acyclic shallow).1
      have free : next.parentOf (some list) = none := by
        cases linked : next.parentOf (some list) with
        | none => rfl
        | some above =>
          rcases moves.link linked with old | rfl
          · rw [root] at old
            cases old
          · exact absurd linked (circleless.not_self _)
      exact ih still circleless free
        (fun child member => Nat.lt_of_lt_of_eq (others child member) size.symm)
        (appends tree next node owned acyclic shallow here begins appended free)

/-- A list is made empty, and then its elements are appended. -/
theorem Owned.addList_induct {motive : Tree → Prop} (owned : tree.Owned) (acyclic : tree.Acyclic)
    (family : ListFamily) {span : Span} {elements : List Handle}
    (present : ∀ child, some child ∈ elements → child < tree.size)
    (begins : motive (tree.push (.emptyList family span)))
    (appends : ∀ before after node, before.Owned → before.Acyclic → before.ShallowAt tree.size →
      (∀ child, node = some child → child < before.size) → motive before →
      before.append (some tree.size) node = some after →
      after.parentOf (some tree.size) = none → motive after) :
    motive (tree.addList family span elements).tree := by
  have links (id : NodeId) :
      (tree.push (.emptyList family span)).parentOf (some id) =
        tree.parentOf (some id) := parentOf_push rfl tree id
  refine (owned.push_empty rfl rfl).appendAll_induct ?_ ?_ ?_ begins appends
  · exact fun id circle => acyclic id (circle.mono fun id parent linked => links id ▸ linked)
  · rw [links]
    exact parentOf_outside (Nat.le_refl _)
  · intro child member
    rw [size_push]
    exact Nat.lt_succ_of_lt (present child member)

section Making

variable {motive : Tree → Prop} (stable : Span.Stable law) (acyclic : tree.Acyclic)
  (lists : ∀ (family : ListFamily) {span : Span}, law span → ∀ {elements : List Handle},
    (∀ child, some child ∈ elements → child < tree.size) →
    motive (tree.addList family span elements).tree)
  (adds : ∀ {tree : Tree}, tree.Owned → tree.Acyclic → motive tree → ∀ {form : Form},
    form.family? = none → ∀ {children : List Handle},
    (∀ child, some child ∈ children → child < tree.size) → ∀ {span : Span}, law span →
    ∀ admits : form.Admits children, motive (tree.add form children span admits).tree)

include stable acyclic lists adds

/-- A node is made with a list of its own. -/
theorem Owned.addWithList_induct (owned : tree.Owned) {form : Form} (fixed : form.family? = none)
    (family : ListFamily) {span : Span} (holds : law span) {first elements last : List Handle}
    (admits : ∀ list, form.Admits (first ++ list :: last))
    (presentAround : ∀ child, some child ∈ first ++ last → child < tree.size)
    (present : ∀ child, some child ∈ elements → child < tree.size) :
    motive (tree.addWithList form family span first elements last admits).tree := by
  obtain ⟨still, size, circleless⟩ := owned.addList_sound family span.atStart present
  refine adds still (circleless acyclic) (lists family (stable.atStart holds) present) fixed
    (fun child member => ?_) holds _
  rw [size]
  exact lt_of_mem_around (presentAround _) member

/-- Every constructor keeps whatever is kept by making a list and by making another node. -/
theorem Owned.build_induct (owned : tree.Owned) (construction : Construction) {span : Span}
    (holds : law span)
    (present : ∀ child, some child ∈ construction.handles → child < tree.size)
    (begins : motive tree) : motive (construction.build tree span).tree := by
  rcases construction.build_cases tree span with ⟨form, children, admits, fixed, named, same⟩ |
    ⟨form, family, first, elements, last, admits, fixed, around, inside, same⟩ |
    ⟨family, elements, named, same⟩
  · rw [same]
    exact adds owned acyclic begins fixed (fun child member => present child (named member)) holds
      admits
  · rw [same]
    exact owned.addWithList_induct stable acyclic lists adds fixed family holds admits
      (fun child member => present child (around member))
      (fun child member => present child (inside member))
  · rw [same]
    exact lists family holds fun child member => present child (named member)

theorem Owned.commaAround_induct (owned : tree.Owned) (begins : motive tree)
    (present : id < tree.size) {span : Span} (holds : law span) :
    motive (tree.commaAround id span).tree := by
  unfold Tree.commaAround
  split
  · exact begins
  · exact owned.addWithList_induct stable acyclic lists adds rfl .expressions
      (stable.withKind _ holds) (fun _ _ => rfl) (by simp) (by simpa using present)

end Making

/-- The child belongs to the new parent, whatever the parent's slots say. -/
theorem adopt_placed (present : child < (tree.detach (some child)).size) (parent : NodeId) :
    Placed (tree.detach (some child)) (tree.adopt parent (some child)) parent child none where
  size := size_modify ..
  family? _ := adopt_family? ..
  span? _ := span?_modify fun _ => rfl
  parentOf id := (parentOf_withParent present _ id).trans (by simp)
  slots _ _ := adopt_slots ..

end ScriptSyntax.Tree
