import ScriptSyntax.Proofs.Tree.Building
import Mathlib.Data.List.Nodup
import Mathlib.Data.Nat.Find
import Mathlib.Logic.Function.Iterate

/-! The nodes above a node. As long as none has more of them than are followed, a child is
refused exactly when it encloses its new parent, and no circle comes about. -/
namespace ScriptSyntax.Tree

variable {tree before after : Tree} {id parent child above : NodeId}

/-- A node that is the parent of another, the parent of that, or further up. -/
def Above (tree : Tree) (above below : NodeId) : Prop :=
  Relation.TransGen (fun id parent => tree.parentOf (some id) = some parent) below above

/-- No node is above itself. -/
def Acyclic (tree : Tree) : Prop := ∀ id, ¬ tree.Above id id

/-- The node has no more nodes above it than are followed. -/
def ShallowAt (tree : Tree) (id : NodeId) : Prop :=
  ∀ nodes : List NodeId, nodes.Nodup → (∀ above ∈ nodes, tree.Above above id) →
    nodes.length ≤ ancestorLimit

def Shallow (tree : Tree) : Prop := ∀ id, tree.ShallowAt id

theorem Above.of_parent (linked : tree.parentOf (some id) = some parent) : tree.Above parent id :=
  .single linked

theorem Above.lift (higher : tree.Above above parent)
    (linked : tree.parentOf (some id) = some parent) : tree.Above above id :=
  .head linked higher

theorem Above.cases (higher : tree.Above above id) :
    ∃ parent, tree.parentOf (some id) = some parent ∧
      (above = parent ∨ tree.Above above parent) := by
  rcases Relation.TransGen.head'_iff.mp higher with ⟨parent, linked, rest⟩
  refine ⟨parent, linked, ?_⟩
  rcases Relation.reflTransGen_iff_eq_or_transGen.mp rest with same | further
  · exact .inl same
  · exact .inr further

theorem not_above_of_root (root : tree.parentOf (some id) = none) : ¬ tree.Above above id := by
  intro higher
  obtain ⟨parent, linked, -⟩ := higher.cases
  rw [root] at linked
  cases linked

theorem Above.mono (links : ∀ id parent, after.parentOf (some id) = some parent →
    before.parentOf (some id) = some parent) (higher : after.Above above id) :
    before.Above above id :=
  Relation.TransGen.mono links _ _ higher

theorem iterate_parentOf_none (tree : Tree) (steps : Nat) : tree.parentOf^[steps] none = none :=
  Function.iterate_fixed rfl steps

/-- A walk up the tree meets what is fewer parents up than it may follow. -/
theorem mem_chain_iff {limit : Nat} {handle : Handle} :
    above ∈ tree.chain limit handle ↔
      ∃ steps < limit, tree.parentOf^[steps] handle = some above := by
  induction limit generalizing handle with
  | zero => simp [chain]
  | succ limit ih =>
    cases handle with
    | none => simp [chain, iterate_parentOf_none]
    | some id =>
      rw [chain, List.mem_cons, ih]
      constructor
      · rintro (rfl | ⟨steps, within, reach⟩)
        · exact ⟨0, Nat.succ_pos _, rfl⟩
        · exact ⟨steps + 1, Nat.succ_lt_succ within, reach⟩
      · rintro ⟨steps, within, reach⟩
        cases steps with
        | zero => exact .inl (Option.some.inj reach).symm
        | succ steps => exact .inr ⟨steps, Nat.lt_of_succ_lt_succ within, reach⟩

theorem above_iff :
    tree.Above above id ↔ ∃ steps, tree.parentOf^[steps + 1] (some id) = some above := by
  constructor
  · intro higher
    induction higher using Relation.TransGen.head_induction_on with
    | single linked => exact ⟨0, linked⟩
    | head linked _ ih =>
      obtain ⟨steps, reach⟩ := ih
      exact ⟨steps + 1, by rwa [Function.iterate_succ_apply, linked]⟩
  · rintro ⟨steps, reach⟩
    induction steps generalizing id with
    | zero => exact .of_parent reach
    | succ steps ih =>
      rw [Function.iterate_succ_apply] at reach
      cases linked : tree.parentOf (some id) with
      | none =>
        rw [linked, iterate_parentOf_none] at reach
        cases reach
      | some next =>
        rw [linked] at reach
        exact (ih reach).lift linked

theorem mem_ancestors_iff : above ∈ tree.ancestors (some id) ↔
    ∃ steps < ancestorLimit, tree.parentOf^[steps + 1] (some id) = some above :=
  mem_chain_iff

/-- Everything above a node that is not too deep is among its ancestors: the shortest way up
to a node passes no node twice. -/
theorem ShallowAt.mem_ancestors_iff (shallow : tree.ShallowAt id) :
    above ∈ tree.ancestors (some id) ↔ tree.Above above id := by
  rw [Tree.mem_ancestors_iff, above_iff]
  refine ⟨fun ⟨steps, _, reach⟩ => ⟨steps, reach⟩, fun reaches => ?_⟩
  classical
  refine ⟨Nat.find reaches, ?_, Nat.find_spec reaches⟩
  have reach := Nat.find_spec reaches
  have shortest := fun earlier => Nat.find_min reaches (m := earlier)
  generalize Nat.find reaches = steps at reach shortest
  let node (step : Nat) : NodeId := (tree.parentOf^[step + 1] (some id)).getD 0
  have passes {step : Nat} (within : step ≤ steps) :
      tree.parentOf^[step + 1] (some id) = some (node step) := by
    cases met : tree.parentOf^[step + 1] (some id) with
    | some other => simp only [node, met, Option.getD_some]
    | none =>
      have split : steps + 1 = (steps - step) + (step + 1) := by omega
      rw [split, Function.iterate_add_apply, met, iterate_parentOf_none] at reach
      cases reach
  have apart : ((List.range (steps + 1)).map node).Nodup := by
    refine List.Nodup.map_on ?_ List.nodup_range
    have later {first second : Nat} (inside : second ≤ steps) (less : first < second) :
        node first ≠ node second := by
      intro same
      -- a node met twice would make the way shorter by what lies between
      refine shortest (steps - second + first) (by omega) ?_
      have split : steps + 1 = (steps - second) + (second + 1) := by omega
      rw [split, Function.iterate_add_apply, passes inside, ← same,
        ← passes (Nat.le_trans (Nat.le_of_lt less) inside), ← Function.iterate_add_apply] at reach
      exact reach
    intro first inFirst second inSecond same
    have firstIn := Nat.le_of_lt_succ (List.mem_range.mp inFirst)
    have secondIn := Nat.le_of_lt_succ (List.mem_range.mp inSecond)
    rcases Nat.lt_trichotomy first second with less | equal | more
    · exact absurd same (later secondIn less)
    · exact equal
    · exact absurd same.symm (later firstIn more)
  have bound := shallow _ apart fun other member => by
    obtain ⟨step, inside, rfl⟩ := List.mem_map.mp member
    exact above_iff.mpr ⟨step, passes (Nat.le_of_lt_succ (List.mem_range.mp inside))⟩
  rw [List.length_map, List.length_range] at bound
  exact bound

theorem not_above_of_not_encloses (shallow : tree.ShallowAt parent)
    (apart : tree.encloses (some child) parent = false) : ¬ tree.Above child parent := by
  intro higher
  have member := shallow.mem_ancestors_iff.mpr higher
  rw [encloses, Bool.or_eq_false_iff, List.any_eq_false] at apart
  exact apart.2 child member (beq_self_eq_true _)

section NewLink

variable (link : ∀ id above, after.parentOf (some id) = some above →
  before.parentOf (some id) = some above ∨ id = child ∧ above = parent)

include link

/-- A node that is not under `child` has no new nodes above it. -/
theorem Above.of_link_outside (outside : id ≠ child ∧ ¬ before.Above child id)
    (higher : after.Above above id) : before.Above above id := by
  induction higher using Relation.TransGen.head_induction_on with
  | single linked => exact .of_parent ((link _ _ linked).resolve_right fun new => outside.1 new.1)
  | head linked _ ih =>
    have kept := (link _ _ linked).resolve_right fun new => outside.1 new.1
    refine (ih ⟨?_, fun under => outside.2 (under.lift kept)⟩).lift kept
    rintro rfl
    exact outside.2 (.of_parent kept)

/-- What is above a node now either was so before, or is so by way of the new link. -/
theorem Above.of_link (apart : parent ≠ child ∧ ¬ before.Above child parent)
    (higher : after.Above above id) :
    before.Above above id ∨ (id = child ∨ before.Above child id) ∧
      (above = parent ∨ before.Above above parent) := by
  induction higher using Relation.TransGen.head_induction_on with
  | single linked =>
    rcases link _ _ linked with kept | ⟨rfl, rfl⟩
    · exact .inl (.of_parent kept)
    · exact .inr ⟨.inl rfl, .inl rfl⟩
  | head linked further ih =>
    rcases link _ _ linked with kept | ⟨rfl, rfl⟩
    · rcases ih with old | ⟨under, upper⟩
      · exact .inl (old.lift kept)
      · refine .inr ⟨.inr ?_, upper⟩
        rcases under with rfl | under
        · exact .of_parent kept
        · exact under.lift kept
    · exact .inr ⟨.inl rfl, .inr (Above.of_link_outside link apart further)⟩

/-- A link up to a node that the child is not above closes no circle. -/
theorem Above.of_link_self (apart : parent ≠ child ∧ ¬ before.Above child parent)
    (circle : after.Above id id) : before.Above id id := by
  rcases circle.of_link link apart with old | ⟨rfl | under, rfl | upper⟩
  · exact old
  · exact absurd rfl apart.1
  · exact absurd upper apart.2
  · exact absurd under apart.2
  · exact absurd (Relation.TransGen.trans upper under) apart.2

end NewLink

/-- A child of a node without a parent has only that one above it. -/
theorem shallowAt_of_root (root : ∀ parent, tree.parentOf (some id) = some parent →
    tree.parentOf (some parent) = none) : tree.ShallowAt id := by
  intro nodes distinct all
  have one : ∀ above ∈ nodes, tree.parentOf (some id) = some above := by
    intro above member
    obtain ⟨parent, linked, rfl | further⟩ := (all above member).cases
    · exact linked
    · obtain ⟨next, beyond, -⟩ := further.cases
      rw [root parent linked] at beyond
      cases beyond
  match nodes, distinct, one with
  | [], _, _ => exact Nat.zero_le _
  | [_], _, _ => exact Nat.le_of_ble_eq_true rfl
  | first :: second :: _, distinct, one =>
    have same := Option.some.inj ((one first (by simp)).symm.trans (one second (by simp)))
    simp [same] at distinct

theorem ShallowAt.mono (shallow : before.ShallowAt id)
    (higher : ∀ above, after.Above above id → before.Above above id) : after.ShallowAt id :=
  fun nodes distinct all => shallow nodes distinct fun above member =>
    higher above (all above member)

/-- Permitted moves to a parent that is not too deep close no circle, and put nothing new
above it. -/
theorem Moves.circles (moves : Moves parent before after) (shallow : before.ShallowAt parent) :
    (∀ id, after.Above id id → before.Above id id) ∧
      ∀ above, after.Above above parent → before.Above above parent := by
  induction moves with
  | refl => exact ⟨fun _ circle => circle, fun _ higher => higher⟩
  | tail _ step ih =>
    obtain ⟨old, higher⟩ := ih
    obtain ⟨moving, permits, moved⟩ := step
    cases moving with
    | none =>
      have links := fun id parent linked => (moved.link id parent linked).resolve_right (by simp)
      exact ⟨fun id circle => old id (circle.mono links),
        fun above up => higher above (up.mono links)⟩
    | some child =>
      have apart := permits child rfl
      have outside := And.intro (not_encloses_self_ne apart).symm
        (not_above_of_not_encloses (shallow.mono higher) apart)
      have link := fun id above linked => (moved.link id above linked).imp_right
        fun ⟨same, top⟩ => And.intro (Option.some.inj same).symm top
      exact ⟨fun id circle => old id (circle.of_link_self link outside),
        fun above up => higher above (up.of_link_outside link outside)⟩

theorem Moves.acyclic (moves : Moves parent before after) (acyclic : before.Acyclic)
    (shallow : before.ShallowAt parent) :
    after.Acyclic ∧ ∀ above, after.Above above parent → before.Above above parent :=
  ⟨fun id circle => acyclic id ((moves.circles shallow).1 id circle), (moves.circles shallow).2⟩

theorem Moves.shallowAt (moves : Moves parent before after)
    (shallow : before.ShallowAt parent) : after.ShallowAt parent :=
  shallow.mono (moves.circles shallow).2

/-- Moves to a parent make links to it only. -/
theorem Moves.link (moves : Moves parent before after)
    (linked : after.parentOf (some id) = some above) :
    before.parentOf (some id) = some above ∨ above = parent := by
  induction moves with
  | refl => exact .inl linked
  | tail _ step ih =>
    obtain ⟨child, -, moved⟩ := step
    rcases moved.link id above linked with old | ⟨-, top⟩
    · exact ih old
    · exact .inr top

/-- A new node has nothing above it, so the children it takes close no circle. -/
theorem Building.acyclic {children : List Handle} {filled : Nat}
    (building : Building before tree children filled) (acyclic : before.Acyclic) :
    tree.Acyclic := by
  have old : ∀ id above, tree.Above above id → before.Above above id ∨ above = before.size := by
    intro id above higher
    induction higher with
    | single linked => exact (building.link _ _ linked).imp_left .of_parent
    | tail _ linked ih =>
      rcases building.link _ _ linked with kept | top
      · rcases ih with lower | rfl
        · exact .inl (lower.tail kept)
        · rw [building.free] at linked
          cases linked
      · exact .inr top
  intro id circle
  rcases old id id circle with lower | rfl
  · exact acyclic id lower
  · obtain ⟨parent, linked, -⟩ := circle.cases
    rw [building.free] at linked
    cases linked

end ScriptSyntax.Tree
