import ScriptSyntax.Proofs.Tree.Pruning
import ScriptSyntax.Proofs.Tree.Refusal

/-! What the replacement of a child does to a tree in order, as a whole: where it is refused,
what stands in the slots of its parent afterwards, and that all other nodes keep what they
have, but for one that the new child has left. -/
namespace ScriptSyntax

section Rows

variable {row : List Handle} {position : Nat} {gone : NodeId}

/-- Where a child is in one slot only, to set that slot is to replace the child. -/
theorem set_eq_replace (there : row[position]? = some (some gone))
    (once : row.count (some gone) = 1) (new : Handle) :
    row.set position new = row.replace (some gone) new := by
  obtain ⟨inside, -⟩ := List.getElem?_eq_some_iff.mp there
  obtain ⟨split, before, -⟩ := split_of_count_eq_one there once
  rw [List.set_eq_take_append_cons_drop, if_pos inside]
  conv_rhs => rw [split]
  rw [List.replace_append_right before, List.replace_cons_self]

/-- A row of slots in which one child has made way. If another takes its place, that one has
left the slot it was in. -/
def replacedRow (isList : Bool) (gone : NodeId) (row : List Handle) : Handle → List Handle
  | none => spared [gone] isList row
  | some child => (spared [child] isList row).replace (some gone) (some child)

end Rows

namespace Tree

variable {tree before after : Tree} {parent child gone : NodeId} {new : Handle}

/-- One child of `parent` has made way for another node, or for none. -/
structure Replaced (before after : Tree) (parent gone : NodeId) (new : Handle) : Prop where
  owned : after.Owned
  size : after.size = before.size
  forms : KeepsForms before after
  parentOf : ∀ id, after.parentOf (some id) =
    if id = gone then none else if new = some id then some parent else before.parentOf (some id)
  row : after.slots (some parent) =
    replacedRow (before.family? (some parent)).isSome gone (before.slots (some parent)) new
  others : ∀ id ≠ parent, after.slots (some id) =
    spared new.toList (before.family? (some id)).isSome (before.slots (some id))

/-- A replacement that is carried out, and is one. -/
theorem Owned.replaceChild_replaced (owned : tree.Owned)
    (present : ∀ child, new = some child → child < tree.size) (distinct : some gone ≠ new)
    (replaced : tree.replaceChild (some parent) (some gone) new = some after) :
    Replaced tree after parent gone new := by
  have moves := owned.replaceChild present replaced
  obtain ⟨still, size, -⟩ := moves.owned owned
  obtain ⟨holder, old, here, there, member, ⟨same, -⟩ | rest⟩ := replaceChild_cases replaced
  · exact absurd same distinct
  obtain rfl := Option.some.inj here
  obtain rfl := Option.some.inj there
  have held := owned.mem_slots_iff.mp member
  rcases rest with ⟨rfl, rfl⟩ | ⟨child, node, position, rfl, apart, -, found, there, rfl⟩
  · have pruned : Pruned tree (tree.removeChild parent (some gone)) [gone] := by
      have detached := owned.detach_pruned gone
      rwa [detach_eq_removeChild held] at detached
    refine ⟨still, size, .removeChild .., fun id => ?_, pruned.slots parent, fun id other => ?_⟩
    · simp [pruned.parentOf]
    · rw [pruned.slots, Option.toList_none, spared_of_free fun _ _ => List.not_mem_nil]
      refine spared_of_not_mem fun again => ?_
      exact other (Option.some.inj (held.symm.trans (owned.mem_slots_iff.mp again))).symm
  · have detached : Pruned tree (tree.detach (some child)) [child] :=
      owned.withdraw_eq child ▸ owned.withdraw child
    have respanned (placed : Tree) :
        Respanned placed ((placed.refreshIfList parent node).widenAncestors (some child)) :=
      .trans (.refreshIfList _ parent node) (.widenAncestors _ _)
    have room : parent < (tree.detach (some child)).size :=
      Nat.lt_of_lt_of_eq (lt_size_of_get? found) detached.size.symm
    have once := detached.owned.held parent gone
    rw [detached.parentOf, if_neg (mt List.mem_singleton.mp apart), if_pos held] at once
    refine ⟨still, size, ?_, fun id => ?_, ?_, fun id other => ?_⟩
    · exact (KeepsForms.detach ..).trans ((KeepsForms.place ..).trans
        ((KeepsForms.refreshIfList ..).trans (KeepsForms.bubbleSpan ..)))
    · rw [(owned.replaceChild_parentOf (present child rfl) distinct replaced).2 id]
      simp only [Option.some.injEq, eq_comm]
    · rw [(respanned _).slots, place_slots_self room (takes_set _ _ _ _), set_eq_replace there once,
        detached.slots]
      rfl
    · rw [(respanned _).slots, place_slots_ne other, detached.slots]
      rfl

namespace Replaced

variable {id : NodeId}

/-- A node that neither is the parent nor has had the new child keeps its slots. -/
theorem slots (replaced : Replaced before after parent gone new) (owned : before.Owned)
    (other : id ≠ parent) (apart : before.parentOf new ≠ some id) :
    after.slots (some id) = before.slots (some id) := by
  rw [replaced.others id other]
  refine spared_of_free fun child member => ?_
  have held := owned.mem_slots_iff.mp member
  cases new with
  | none => exact List.not_mem_nil
  | some new =>
    rw [Option.toList_some, List.mem_singleton]
    rintro rfl
    exact apart held

theorem not_mem_slots (replaced : Replaced before after parent gone new) (id : NodeId) :
    some gone ∉ after.slots (some id) := by
  rw [replaced.owned.mem_slots_iff, replaced.parentOf, if_pos rfl]
  exact Option.some_ne_none id ∘ Eq.symm

/-- The child that has made way is met by no walk but one that begins with it. -/
theorem not_entered {σ : Type} (replaced : Replaced before after parent gone new)
    (acyclic : after.Acyclic) {root : NodeId} (elsewhere : root ≠ gone) (visitor : Visitor σ)
    (state : σ) :
    gone ∉ Event.enteredIn (after.walk (some root) visitor.recording (state, [])).2 := by
  by_cases present : root < after.size
  · obtain ⟨events, traverses, -, recorded⟩ :=
      walk_recording replaced.owned acyclic present visitor state []
    rw [recorded, List.nil_append, traverses.mem_iff]
    rintro (top | ⟨above, held, -⟩)
    · exact elsewhere (Option.some.inj (List.mem_singleton.mp top)).symm
    · exact replaced.not_mem_slots above held
  · have outside : after.get? (some root) = none := get?_eq_none (Nat.le_of_not_lt present)
    have met : after.walk (some root) visitor.recording (state, []) = (state, []) := by
      unfold walk
      dsimp only
      cases after.size <;> simp [walkFrom, outside]
    rw [met]
    exact List.not_mem_nil

end Replaced

/-- A replacement is carried out just when the child is there, and what is to take its place is
that child, or no node, or one that does not enclose the parent. -/
theorem Owned.replaceChild_isSome_iff {handle old : Handle} (owned : tree.Owned) :
    (tree.replaceChild handle old new).isSome ↔
      ∃ parent gone, handle = some parent ∧ old = some gone ∧
        some gone ∈ tree.slots (some parent) ∧
        (new = old ∨ tree.encloses new parent = false) := by
  constructor
  · intro carried
    obtain ⟨after, replaced⟩ := Option.isSome_iff_exists.mp carried
    obtain ⟨parent, gone, here, there, member, cases⟩ := replaceChild_cases replaced
    refine ⟨parent, gone, here, there, member, ?_⟩
    rcases cases with ⟨same, -⟩ | ⟨rfl, -⟩ | ⟨child, -, -, rfl, -, apart, -⟩
    · exact .inl same.symm
    · exact .inr (not_encloses_none tree parent)
    · exact .inr apart
  · rintro ⟨parent, gone, rfl, rfl, member, apart⟩
    by_cases distinct : some gone = new
    · obtain ⟨node, found⟩ : ∃ node, tree.get? (some parent) = some node :=
        ⟨_, Array.getElem?_eq_getElem (owned.upTo.parent_lt (owned.mem_slots_iff.mp member))⟩
      obtain ⟨position, slot, -⟩ := Node.slotOf?_eq_some (slots_of_get? found ▸ member)
      simp [Tree.replaceChild, found, ← distinct, slot]
    · rw [← Option.ne_none_iff_isSome, Ne, owned.replaceChild_eq_none_iff member distinct,
        apart.resolve_left (Ne.symm distinct)]
      exact Bool.false_ne_true

/-- Where no node has more nodes above it than are followed, a child of a node is replaced just
when it is there, and what is to take its place is itself, no node, or a node that is neither
the parent nor above it; no second look finds it gone. What is refused changes nothing, and
neither does a replacement by the same node. Any other takes the child out of all slots, and
the new one out of its old place into that of the child; all else stays as it was but for
spans. -/
theorem replaceChild_contract (owned : tree.Owned) (acyclic : tree.Acyclic)
    (shallow : tree.Shallow) (holder old : Handle)
    (present : ∀ child, new = some child → child < tree.size) :
    ((tree.replaceChild holder old new).isSome ↔
      ∃ parent gone, holder = some parent ∧ old = some gone ∧
        some gone ∈ tree.slots (some parent) ∧
        (new = old ∨ new = none ∨
          ∃ child, new = some child ∧ child ≠ parent ∧ ¬ tree.Above child parent)) ∧
    (tree.replaceChild holder old new = none →
      (Operation.replaceChild holder old new).apply tree = tree) ∧
    (∀ parent gone child, holder = some parent → old = some gone → new = some child →
      some gone ∈ tree.slots (some parent) → gone ≠ child →
      tree.encloses (some child) parent = false →
      some gone ∈ (tree.adopt parent (some child)).slots (some parent)) ∧
    ∀ after, tree.replaceChild holder old new = some after →
      (new = old → after = tree) ∧
      (new ≠ old → ∃ parent gone, holder = some parent ∧ old = some gone ∧
        Replaced tree after parent gone new ∧ after.Acyclic ∧
        (∀ child previous, new = some child → tree.parentOf new = some previous →
          previous ≠ parent → some child ∉ after.slots (some previous)) ∧
        (∀ id, some gone ∉ after.slots (some id)) ∧
        (∀ (σ : Type) (visitor : Visitor σ) (state : σ), ∀ root ≠ gone, gone ∉ Event.enteredIn
          (after.walk (some root) visitor.recording (state, [])).2) ∧
        (∀ id ≠ parent, tree.parentOf new ≠ some id →
          after.slots (some id) = tree.slots (some id)) ∧
        (∀ id ≠ gone, new ≠ some id → after.parentOf (some id) = tree.parentOf (some id)) ∧
        ∀ id, after.form? (some id) = tree.form? (some id)) := by
  refine ⟨?_, fun refused => Operation.apply_of_refused refused, ?_,
    fun after replaced => ⟨?_, fun distinct => ?_⟩⟩
  · rw [owned.replaceChild_isSome_iff]
    refine exists_congr fun parent => exists_congr fun gone => and_congr_right fun _ =>
      and_congr_right fun _ => and_congr_right fun _ => or_congr_right ?_
    cases new with
    | none => simp [not_encloses_none]
    | some child =>
      rw [Bool.eq_false_iff, Ne, encloses_iff, (shallow parent).mem_ancestors_iff, not_or]
      simp
  · rintro parent gone child - - - member distinct -
    exact owned.mem_adopt_slots member distinct
  · rintro rfl
    obtain ⟨parent, gone, rfl, rfl, -, ⟨-, same⟩ | ⟨none, -⟩ | ⟨child, -, -, same, distinct, -⟩⟩ :=
      replaceChild_cases replaced
    · exact same
    · cases none
    · exact absurd (Option.some.inj same) distinct
  · obtain ⟨parent, gone, rfl, rfl, -⟩ := replaceChild_cases replaced
    have made := owned.replaceChild_replaced present (Ne.symm distinct) replaced
    have circles := (owned.replaceChild present replaced).acyclic acyclic (shallow parent)
    refine ⟨parent, gone, rfl, rfl, made, circles.1, ?_, made.not_mem_slots, ?_, ?_, ?_,
      fun id => made.forms.form? (some id)⟩
    · rintro child previous rfl - elsewhere member
      rw [made.others previous elsewhere] at member
      exact (mem_spared_iff.mp member).2 (List.mem_singleton_self child)
    · exact fun σ visitor state root elsewhere =>
        made.not_entered circles.1 elsewhere visitor state
    · exact fun id other apart => made.slots owned other apart
    · intro id stays other
      rw [made.parentOf, if_neg stays, if_neg other]

/-- The first element of a list takes the place of the last. -/
theorem replaceChild_contract_of_first_element :
    let list := Operation.applyAll [.make (.lookup "a") .empty, .make (.lookup "b") .empty,
      .make (.lookup "c") .empty, .make (.list .expressions [some 0, some 1, some 2]) .empty] {}
    (list.Owned ∧ list.Acyclic ∧ list.Shallow ∧ ∀ child, some 0 = some child → child < list.size) ∧
      ∃ after, list.replaceChild (some 3) (some 2) (some 0) = some after ∧
        after.slots (some 3) = [some 1, some 0] ∧ after.parentOf (some 2) = none ∧ after.Acyclic := by
  intro list
  have reached : Reached (fun tree _ => tree.Shallow) list := .applyAll .empty (by decide)
  have owned := reached.owned
  have acyclic := reached.acyclic fun _ _ shallow => shallow
  have shallow : list.Shallow := owned.shallow (by decide)
  have present : ∀ child : NodeId, some 0 = some child → child < list.size := by
    rintro child ⟨⟩
    decide
  refine ⟨⟨owned, acyclic, shallow, present⟩, ?_⟩
  obtain ⟨carried, -, -, result⟩ :=
    replaceChild_contract owned acyclic shallow (some 3) (some 2) present
  have replaced : (list.replaceChild (some 3) (some 2) (some 0)).isSome := by decide
  obtain ⟨after, replaced⟩ := Option.isSome_iff_exists.mp replaced
  obtain ⟨parent, gone, here, there, made, circles, -⟩ := (result after replaced).2 (by decide)
  obtain rfl := Option.some.inj here
  obtain rfl := Option.some.inj there
  refine ⟨after, replaced, ?_, ?_, circles⟩
  · rw [made.row]
    decide
  · rw [made.parentOf]
    rfl

end Tree

end ScriptSyntax
