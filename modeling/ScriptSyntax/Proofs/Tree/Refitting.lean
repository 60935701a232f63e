import ScriptSyntax.Proofs.Tree.Fitting

/-! Moving children keeps spans covered. While elements are moved into a list, a node above
it may come to count for nothing although the list stands for text: it then has the same
place, and no other child that stands for text. -/
namespace ScriptSyntax.Tree

variable {tree before after : Tree} {behind : Nat → Nat} {law : Span → Prop}
  {spare : NodeId → Prop}
  {list parent child id : NodeId} {position : Nat} {handle : Handle}

theorem Acyclic.not_self (acyclic : tree.Acyclic) (id : NodeId) :
    tree.parentOf (some id) ≠ some id :=
  fun own => acyclic id (.of_parent own)

/-- No child of a node is above it. -/
theorem Acyclic.not_upward_of_parent (acyclic : tree.Acyclic)
    (linked : tree.parentOf (some child) = some parent) : ¬ tree.Upward parent child := by
  rintro (rfl | higher)
  · exact acyclic.not_self _ linked
  · exact acyclic parent (Relation.TransGen.tail higher linked)

/-- What is above a node stays so when the links that lead there do. -/
theorem Upward.kept (upward : before.Upward child id)
    (links : ∀ id above, before.Upward child id → before.parentOf (some id) = some above →
      after.parentOf (some id) = some above) : after.Upward child id := by
  rcases upward with rfl | higher
  · exact .inl rfl
  induction higher with
  | single linked => exact .inr (.of_parent (links _ _ (.inl rfl) linked))
  | tail lower linked ih => exact ih.of_parent (links _ _ (.inr lower) linked)

theorem Respanned.upward_iff (respanned : Respanned before after) :
    after.Upward child id ↔ before.Upward child id :=
  ⟨fun upward => upward.kept fun _ _ _ linked => (respanned.parentOf _).symm.trans linked,
    fun upward => upward.kept fun _ _ _ linked => (respanned.parentOf _).trans linked⟩

theorem not_upward_of_not_encloses (shallow : tree.ShallowAt parent)
    (apart : tree.encloses (some child) parent = false) : ¬ tree.Upward parent child := by
  rintro (same | higher)
  · exact not_encloses_self_ne apart same
  · exact not_above_of_not_encloses shallow apart higher

/-- A child that takes a place in a node it does not enclose closes no circle. -/
theorem Owned.placed_acyclic {placed : Tree} {old : Handle} (owned : tree.Owned)
    (acyclic : tree.Acyclic) (shallow : tree.ShallowAt parent)
    (apart : tree.encloses (some child) parent = false)
    (place : Placed (tree.detach (some child)) placed parent child old) (whole : placed.Owned) :
    placed.Acyclic := by
  have moved := (owned.detach_moved child parent).placed place whole
  exact ((moved.moves_of_permits apart (.refl placed)).acyclic acyclic shallow).1

/-- What an insertion comes to when no circle can come about: the child takes its place
in the list, the span of the list takes it in, and the spans above are widened. -/
theorem Owned.insertElement_placed (owned : tree.Owned) (acyclic : tree.Acyclic)
    (shallow : tree.ShallowAt list) (present : child < tree.size)
    (inserted : tree.insertElement list position (some child) = some after) :
    ¬ tree.Upward list child ∧ ∃ placed, ∃ alone : Bool,
      alone = ((tree.detach (some child)).slots (some list)).isEmpty ∧
      Placed (tree.detach (some child)) placed list child none ∧ placed.Owned ∧
      placed.Acyclic ∧ placed.ShallowAt list ∧ Respanned placed after ∧
      (∀ id, placed.parentOf (some id) =
        if id = child then some list else tree.parentOf (some id)) ∧
      after = (if alone then placed.recomputeListSpan (some list)
        else placed.widenOver (some list) (some child)).widenAncestors (some list) := by
  obtain ⟨apart, -, placed, span, place, still, same, fit⟩ :=
    owned.insertElement_steps present inserted
  have moved := (owned.detach_moved child list).placed place still
  have moves := moved.moves_of_permits apart (.refl placed)
  refine ⟨not_upward_of_not_encloses shallow apart, placed, _, rfl, place, still,
    (moves.acyclic acyclic shallow).1, moves.shallowAt shallow, ?_, fun id => ?_,
    fit ▸ same⟩
  · rw [same, fit]
    split
    · exact (Respanned.recomputeListSpan _ _).trans (.widenAncestors _ _)
    · exact (Respanned.widenOver _ _ _).trans (.widenAncestors _ _)
  · rw [owned.parentOf_placed place, if_neg nofun]

/-- An insertion puts nothing new above the list. -/
theorem Owned.insertElement_upward (owned : tree.Owned) (acyclic : tree.Acyclic)
    (shallow : tree.ShallowAt list) (present : child < tree.size)
    (inserted : tree.insertElement list position (some child) = some after) :
    after.Upward list id ↔ tree.Upward list id := by
  obtain ⟨outside, placed, alone, -, -, -, -, -, respanned, links, -⟩ :=
    owned.insertElement_placed acyclic shallow present inserted
  have higher := ((owned.insertElement present inserted).acyclic acyclic shallow).2
  refine ⟨Or.imp_right (higher id), fun upward => upward.kept fun other above up held => ?_⟩
  rw [respanned.parentOf, links, if_neg, held]
  rintro rfl
  exact outside up

/-- Taking an element out of a list leaves other links alone. -/
theorem Owned.removeAt_parentOf (owned : tree.Owned) {above : NodeId}
    (linked : tree.parentOf (some id) = some above) (elsewhere : handle ≠ some above)
    (position : Nat) : (tree.removeAt handle position).1.parentOf (some id) = some above := by
  rcases removeAt_cases tree handle position with same | ⟨list, removed, rfl, isList, there, same⟩
  · rw [same]
    exact linked
  obtain ⟨child, rfl, -, relinked⟩ := owned.unlink_element isList there
  have held := owned.mem_slots_iff.mp (List.mem_of_getElem? there)
  rw [same, (Respanned.recomputeListSpan _ _).parentOf, relinked.parentOf, if_neg, linked]
  rintro rfl
  exact elsewhere (held.symm.trans linked)

/-- Replacing `gone` by `child` in a list goes past the node that holds the list: when the
child has left its old place, it does not fit there. -/
def Overlooks (tree : Tree) (list gone child : NodeId) : Prop :=
  (tree.family? (some list)).isSome ∧ some gone ∈ tree.slots (some list) ∧ gone ≠ child ∧
    tree.encloses (some child) list = false ∧
    ∃ holder, tree.parentOf (some list) = some holder ∧
      ¬ ((tree.detach (some child)).spanOf child).Fits ((tree.detach (some child)).spanOf holder)

/-- Unless it comes from a list, a child leaves its place without a change of spans. -/
theorem Owned.detach_spanOf (owned : tree.Owned)
    (fixed : ∀ previous, tree.parentOf (some child) = some previous →
      tree.family? (some previous) = none) (id : NodeId) :
    (tree.detach (some child)).spanOf id = tree.spanOf id := by
  obtain ⟨free, relinked, -, -, ⟨-, same⟩ | ⟨previous, node, held, found, same⟩⟩ :=
    owned.upTo.detach child
  · rw [same]
    exact spanOf_congr (relinked.span? _)
  · have noList := fixed previous held
    rw [family?_of_get? found] at noList
    rw [same, Tree.refreshIfList, Node.isList, Form.isList, noList]
    exact spanOf_congr (relinked.span? _)

/-- Below a node that counts for nothing no node stands for text. -/
theorem Fitted.blank_below (fitted : Snug law tree)
    (blank : (tree.spanOf parent).isPlaceholder) (below : tree.Above parent id) :
    (tree.spanOf id).isPlaceholder := by
  induction below using Relation.TransGen.head_induction_on with
  | single linked => exact fitted.calm _ blank _ linked
  | head linked _ ih => exact fitted.calm _ ih _ linked

/-- What stands for text outside the list still does when an element is inserted. -/
theorem Owned.insertElement_solid (owned : tree.Owned) (acyclic : tree.Acyclic)
    (shallow : tree.ShallowAt list) (present : child < tree.size)
    (reads : tree.SpansAre Span.Ordered)
    (fixed : ∀ previous, tree.parentOf (some child) = some previous →
      tree.family? (some previous) = none)
    (inserted : tree.insertElement list position (some child) = some after)
    (elsewhere : id ≠ list) (solid : ¬ (tree.spanOf id).isPlaceholder) :
    ¬ (after.spanOf id).isPlaceholder := by
  obtain ⟨-, placed, alone, -, place, still, -, -, -, links, same⟩ :=
    owned.insertElement_placed acyclic shallow present inserted
  have held : placed.parentOf (some child) = some list := by
    rw [links, if_pos rfl]
  have room := still.parent_lt held
  have reads : placed.SpansAre Span.Ordered :=
    (reads.detach Span.stable_ordered owned child).of_same place.span?
  rw [← owned.detach_spanOf fixed id, ← spanOf_congr (place.span? _)] at solid
  rw [same]
  split
  · refine bubbleSpan_solid (reads.recomputeListSpan Span.stable_ordered _) ?_ _ _
    rwa [recomputeListSpan_eq room, spanOf_setSpan room, if_neg elsewhere]
  · refine bubbleSpan_solid (reads.widenOver Span.stable_ordered _ _) ?_ _ _
    rwa [widenOver_eq room (child_lt held), spanOf_setSpan room, if_neg elsewhere]

/-- Taking an element out of a list changes the span of that list only. -/
theorem Owned.removeAt_spanOf (owned : tree.Owned) (elsewhere : handle ≠ some id)
    (position : Nat) : (tree.removeAt handle position).1.spanOf id = tree.spanOf id := by
  rcases removeAt_cases tree handle position with same | ⟨list, removed, rfl, isList, there, same⟩
  · rw [same]
  obtain ⟨child, rfl, -, relinked⟩ := owned.unlink_element isList there
  have room : list < (tree.unlink list position (some child)).size :=
    Nat.lt_of_lt_of_eq (lt_size_of_family? isList) relinked.size.symm
  rw [same, recomputeListSpan_eq room, spanOf_setSpan room, if_neg, spanOf_congr (relinked.span? _)]
  rintro rfl
  exact elsewhere rfl

/-- A list that stands for no text, like its elements, still does not with one of them
gone. -/
theorem Owned.removeAt_blank (owned : tree.Owned) (blank : (tree.spanOf list).isPlaceholder)
    (calm : tree.Calm list) (position : Nat) :
    ((tree.removeAt (some list) position).1.spanOf list).isPlaceholder := by
  rcases removeAt_cases tree (some list) position with same |
    ⟨target, removed, same, isList, there, out⟩
  · rw [same]
    exact blank
  obtain rfl := Option.some.inj same
  obtain ⟨child, rfl, still, relinked⟩ := owned.unlink_element isList there
  have room : list < (tree.unlink list position (some child)).size :=
    Nat.lt_of_lt_of_eq (lt_size_of_family? isList) relinked.size.symm
  rw [out, recomputeListSpan_eq room, spanOf_setSpan room, if_pos rfl,
    spanOf_congr (relinked.span? _)]
  refine listHull_of_stable Span.stable_isPlaceholder blank fun handle member span found => ?_
  cases handle with
  | none => cases found
  | some id =>
    rw [relinked.span?] at found
    rw [← spanOf_eq found]
    exact calm blank id (relinked.links id list (still.mem_slots_iff.mp member))

/-- What stands for text still does, unless it is one of the two lists. -/
theorem Owned.insert_solid (owned : tree.Owned) (acyclic : tree.Acyclic)
    (shallow : tree.ShallowAt list) (present : child < tree.size)
    (reads : tree.SpansAre Span.Ordered)
    (fixed : ∀ previous, tree.parentOf (some child) = some previous →
      tree.family? (some previous) = none)
    (inserted : tree.insertBy behind (some list) position (some child) = some after)
    (apart : id ≠ list) (distinct : id ≠ child) (solid : ¬ (tree.spanOf id).isPlaceholder) :
    ¬ (after.spanOf id).isPlaceholder := by
  obtain ⟨target, source, family, same, here, isList, separate, rest⟩ := insert_cases inserted
  obtain rfl := Option.some.inj same
  obtain rfl := Option.some.inj here
  rcases rest with ⟨alike, out⟩ | ⟨-, inserted⟩
  · suffices kept : Moves list tree after ∧ after.SpansAre Span.Ordered ∧
      ¬ (after.spanOf id).isPlaceholder from kept.2.2
    rw [out]
    refine owned.moveElements_induct
      (motive := fun middle => Moves list tree middle ∧ middle.SpansAre Span.Ordered ∧
        ¬ (middle.spanOf id).isPlaceholder)
      (not_encloses_self_ne separate) (Option.isSome_of_eq_some alike) rfl ⟨.refl, reads, solid⟩
      ?_ ?_
    · rintro middle still ⟨moves, lawful, solid⟩
      refine ⟨moves.trans (still.removeAt _ _ _).moves,
        lawful.removeAt Span.stable_ordered still _ _, ?_⟩
      rwa [still.removeAt_spanOf fun same => distinct (Option.some.inj same).symm]
    · rintro _ middle next element place - - still ⟨moves, lawful, solid⟩ inside free inserted
      obtain ⟨circleless, -⟩ := moves.acyclic acyclic shallow
      exact ⟨moves.trans (still.insertElement inside inserted),
        lawful.insertElement Span.stable_ordered still inside inserted,
        still.insertElement_solid circleless (moves.shallowAt shallow) inside lawful
          (by rw [free]; nofun) inserted apart solid⟩
  · exact owned.insertElement_solid acyclic shallow present reads fixed inserted apart solid

namespace Fitted

section Moving

variable (stable : Span.Stable law) (ordered : ∀ {span}, law span → span.Ordered)

include stable ordered

/-- A child that does not enclose the list becomes an element of it. -/
theorem insertElement (fitted : Fitted law (tree.Upward list) none tree) (owned : tree.Owned)
    (acyclic : tree.Acyclic) (shallow : tree.ShallowAt list) (present : child < tree.size)
    (calm : ∀ previous, tree.parentOf (some child) = some previous →
      (tree.family? (some previous)).isSome → tree.Calm previous)
    (inserted : tree.insertElement list position (some child) = some after) :
    Fitted law (after.Upward list) none after := by
  have upward : ∀ id, after.Upward list id ↔ tree.Upward list id := fun id =>
    owned.insertElement_upward acyclic shallow present inserted
  obtain ⟨-, placed, alone, -, place, still, circleless, depth, respanned, links, same⟩ :=
    owned.insertElement_placed acyclic shallow present inserted
  have held : placed.parentOf (some child) = some list := by
    rw [links, if_pos rfl]
  have loose : Fitted law (placed.Upward list) (some child) placed :=
    ((fitted.detach stable ordered owned.upTo acyclic.not_self calm).placed place).mono
      fun id up => respanned.upward_iff.mp ((upward id).mpr up)
  refine Fitted.mono ?_ fun id up => respanned.upward_iff.mpr up
  rw [same]
  exact loose.inserted stable ordered still circleless (circleless.line list)
    (fun id => circleless.not_upward_of_parent) held depth (.inr (.inl rfl))

/-- One list gives up its elements to another that it does not enclose. -/
theorem moveElements (fitted : Fitted law (tree.Upward list) none tree) (owned : tree.Owned)
    (acyclic : tree.Acyclic) (shallow : tree.ShallowAt list) {source : NodeId}
    (outside : ¬ tree.Upward list source) (isList : (tree.family? (some source)).isSome)
    (position : Nat) :
    let after := tree.moveElements behind list source (tree.slots (some source)).length position
    Fitted law (after.Upward list) none after := by
  refine (owned.moveElements_induct
    (motive := fun middle => Moves list tree middle ∧ Fitted law (middle.Upward list) none middle)
    (fun same => outside (.inl same)) isList rfl ⟨.refl, fitted⟩ ?_ ?_).2
  · intro middle still ⟨moves, kept⟩
    obtain ⟨circleless, higher⟩ := moves.acyclic acyclic shallow
    have apart : ¬ middle.Upward list source := fun up => outside (up.imp_right (higher source))
    refine ⟨moves.trans (still.removeAt _ _ _).moves, ?_⟩
    refine (kept.removeAt stable ordered still circleless.not_self ?_).mono ?_
    · rintro other same blank id linked
      obtain rfl := Option.some.inj same
      exact (kept.seen id source linked nofun blank).resolve_right
        fun up => apart (up.of_parent linked)
    · intro id upward
      refine upward.kept fun other above up linked => still.removeAt_parentOf linked ?_ 0
      intro same
      exact apart (Option.some.inj same ▸ up.of_parent linked)
  · intro _ middle next child place _ _ still ⟨moves, kept⟩ present free inserted
    obtain ⟨circleless, -⟩ := moves.acyclic acyclic shallow
    have depth := moves.shallowAt shallow
    refine ⟨moves.trans (still.insertElement present inserted), ?_⟩
    refine kept.insertElement stable ordered still circleless depth present ?_ inserted
    intro previous linked
    rw [free] at linked
    cases linked

/-- Inserting a node, or the elements of a list of the same family. -/
theorem insert (fitted : Snug law tree) (owned : tree.Owned)
    (acyclic : tree.Acyclic) (shallow : tree.ShallowAt list) {node : Handle}
    (present : ∀ child, node = some child → child < tree.size)
    (inserted : tree.insertBy behind (some list) position node = some after) :
    Fitted law (after.Upward list) none after := by
  have wider : Fitted law (tree.Upward list) none tree := fitted.mono fun _ => False.elim
  obtain ⟨target, child, family, same, rfl, isList, apart, rest⟩ := insert_cases inserted
  obtain rfl := Option.some.inj same
  rcases rest with ⟨alike, rfl⟩ | ⟨-, inserted⟩
  · exact wider.moveElements stable ordered owned acyclic shallow
      (not_upward_of_not_encloses shallow apart) (Option.isSome_of_eq_some alike) position
  · exact wider.insertElement stable ordered owned acyclic shallow (present child rfl)
      (fun previous _ _ => fitted.calm previous) inserted

/-- When neither the list nor the new element stands for text, no node comes to do so. -/
theorem insertElement_blank (fitted : Snug law tree)
    (owned : tree.Owned) (acyclic : tree.Acyclic) (shallow : tree.ShallowAt list)
    (present : child < tree.size)
    (fixed : ∀ previous, tree.parentOf (some child) = some previous →
      tree.family? (some previous) = none)
    (blankList : (tree.spanOf list).isPlaceholder) (blank : (tree.spanOf child).isPlaceholder)
    (inserted : tree.insertElement list position (some child) = some after) :
    Snug law after ∧
      ∀ id, (tree.spanOf id).isPlaceholder → (after.spanOf id).isPlaceholder := by
  obtain ⟨-, placed, alone, -, place, still, circleless, depth, -, links, same⟩ :=
    owned.insertElement_placed acyclic shallow present inserted
  have spans (id : NodeId) : placed.spanOf id = tree.spanOf id :=
    (spanOf_congr (place.span? _)).trans (owned.detach_spanOf fixed id)
  have held : placed.parentOf (some child) = some list := by
    rw [links, if_pos rfl]
  have loose : Fitted law (fun _ => False) (some child) placed :=
    (fitted.detach stable ordered owned.upTo acyclic.not_self fun previous _ _ =>
      fitted.calm previous).placed place
  rw [← spans] at blankList blank
  rw [same]
  refine ⟨loose.inserted stable ordered still circleless ⟨nofun, nofun⟩ (fun _ _ => not_false)
    held depth (.inl ⟨blankList, blank⟩), fun id none => ?_⟩
  obtain ⟨span, refit, -, -, empty⟩ :=
    spanWith stable ordered alone loose still (fun _ _ => not_false) held
  have present := still.parent_lt held
  rw [refit, Tree.widenAncestors, bubbleSpan_of_blank, spanOf_setSpan present]
  · split
    · exact empty blankList blank
    · exact (spans id).symm ▸ none
  · rw [spanOf_setSpan present, if_pos rfl]
    exact empty blankList blank

/-- When neither the list nor what is inserted stands for text, no node comes to do so. -/
theorem insert_blank (fitted : Snug law tree) (owned : tree.Owned)
    (acyclic : tree.Acyclic) (shallow : tree.ShallowAt list) (present : child < tree.size)
    (fixed : ∀ previous, tree.parentOf (some child) = some previous →
      tree.family? (some previous) = none)
    (blankList : (tree.spanOf list).isPlaceholder) (blank : (tree.spanOf child).isPlaceholder)
    (inserted : tree.insertBy behind (some list) position (some child) = some after) :
    Snug law after := by
  obtain ⟨target, source, family, same, here, isList, separate, rest⟩ := insert_cases inserted
  obtain rfl := Option.some.inj same
  obtain rfl := Option.some.inj here
  rcases rest with ⟨alike, out⟩ | ⟨-, inserted⟩
  · suffices kept : Moves list tree after ∧ Snug law after ∧
      ∀ id, (tree.spanOf id).isPlaceholder → (after.spanOf id).isPlaceholder from kept.2.1
    rw [out]
    refine owned.moveElements_induct
      (motive := fun middle => Moves list tree middle ∧ Snug law middle ∧
        ∀ id, (tree.spanOf id).isPlaceholder → (middle.spanOf id).isPlaceholder)
      (not_encloses_self_ne separate) (Option.isSome_of_eq_some alike) rfl
      ⟨.refl, fitted, fun _ => id⟩ ?_ ?_
    · rintro middle still ⟨moves, strict, kept⟩
      obtain ⟨circleless, -⟩ := moves.acyclic acyclic shallow
      refine ⟨moves.trans (still.removeAt _ _ _).moves,
        strict.removeAt stable ordered still circleless.not_self fun list _ => strict.calm list,
        fun id none => ?_⟩
      by_cases source : child = id
      · subst source
        exact still.removeAt_blank (kept child none) (strict.calm child) 0
      · rw [still.removeAt_spanOf fun same => source (Option.some.inj same)]
        exact kept id none
    · rintro earlier middle next element place ⟨former, -, -⟩ held still ⟨moves, strict, kept⟩
        inside free inserted
      obtain ⟨circleless, -⟩ := moves.acyclic acyclic shallow
      have old := (former.link held).resolve_right (not_encloses_self_ne separate)
      obtain ⟨strictly, blanks⟩ := strict.insertElement_blank stable ordered still circleless
        (moves.shallowAt shallow) inside (by rw [free]; nofun) (kept list blankList)
        (kept element (fitted.calm child blank element old)) inserted
      exact ⟨moves.trans (still.insertElement inside inserted), strictly,
        fun id none => blanks id (kept id none)⟩
  · exact (fitted.insertElement_blank stable ordered owned acyclic shallow present fixed blankList
      blank inserted).1

/-- A node above both the list and what is inserted stays calm: if it does not stand for
text, nothing that is moved does. -/
theorem insert_calm (fitted : Snug law tree) (owned : tree.Owned)
    (acyclic : tree.Acyclic) (shallow : tree.ShallowAt list)
    (fixed : ∀ previous, tree.parentOf (some child) = some previous →
      tree.family? (some previous) = none)
    (inserted : tree.insertBy behind (some list) position (some child) = some after)
    {holder : NodeId}
    (overList : tree.Above holder list) (overChild : tree.Above holder child) :
    after.Calm holder := by
  have present : child < tree.size := by
    obtain ⟨parent, linked, -⟩ := overChild.cases
    exact child_lt linked
  by_cases blank : (tree.spanOf holder).isPlaceholder
  · exact (fitted.insert_blank stable ordered owned acyclic shallow present fixed
      (fitted.blank_below blank overList) (fitted.blank_below blank overChild) inserted).calm holder
  · have apart : holder ≠ list := by
      rintro rfl
      exact acyclic _ overList
    have distinct : holder ≠ child := by
      rintro rfl
      exact acyclic _ overChild
    have solid := owned.insert_solid acyclic shallow present (fitted.lawful.imp ordered) fixed
      inserted apart distinct blank
    exact fun none => absurd none solid

/-- A child has taken its place in `parent`, which it does not enclose. -/
theorem placed_upward (fitted : Snug law tree) (owned : tree.Owned)
    (acyclic : tree.Acyclic) {placed : Tree} {old : Handle}
    (place : Placed (tree.detach (some child)) placed parent child old) :
    Fitted law (placed.Upward child) (some child) placed :=
  ((fitted.detach stable ordered owned.upTo acyclic.not_self fun previous _ _ =>
    fitted.calm previous).placed place).mono fun _ => False.elim

/-- One child is replaced by another, or taken away. -/
theorem replaceChild (fitted : Snug law tree) (owned : tree.Owned)
    (acyclic : tree.Acyclic) (shallow : tree.Shallow) {old new : Handle}
    (present : ∀ child, new = some child → child < tree.size)
    (replaced : tree.replaceChild handle old new = some after) (still : after.Shallow)
    (room : ∀ list gone child, handle = some list → old = some gone → new = some child →
      ¬ tree.Overlooks list gone child) :
    Fitted law (fun _ => True) none after := by
  rcases owned.replaceChild_steps present replaced with
    ⟨-, rfl⟩ | ⟨parent, gone, rfl, rfl, held, ⟨rfl, rfl⟩ |
      ⟨child, node, placed, rfl, distinct, apart, found, place, whole, rfl⟩⟩
  · exact fitted.mono fun _ => False.elim
  · exact (fitted.removeChild stable ordered owned acyclic.not_self held fun _ =>
      fitted.calm parent).mono fun _ => False.elim
  have links := owned.parentOf_placed place
  have circleless := owned.placed_acyclic acyclic (shallow parent) apart place whole
  have respanned := (Respanned.refreshIfList placed parent node).trans
    (.widenAncestors _ (some child))
  have installed : placed.parentOf (some child) = some parent := by
    rw [links, if_neg fun same => distinct (Option.some.inj same), if_pos rfl]
  refine ((fitted.placed_upward stable ordered owned acyclic place).replaced stable ordered whole
    circleless installed ((still child).respanned respanned.symm) ?_).mono fun _ _ => trivial
  intro isList holder linked
  rw [links] at linked
  split at linked
  · cases linked
  rw [if_neg (not_encloses_self_ne apart).symm] at linked
  by_contra short
  rw [spanOf_congr (place.span? _), spanOf_congr (place.span? _)] at short
  refine room parent gone child rfl rfl rfl ⟨?_, owned.mem_slots_iff.mpr held, distinct, apart,
    holder, linked, short⟩
  rw [family?_of_get? found]
  exact isList

/-- The element at a position is replaced by another, or taken away. -/
theorem setElement (fitted : Snug law tree) (owned : tree.Owned)
    (acyclic : tree.Acyclic) (shallow : tree.Shallow) {node : Handle}
    (present : ∀ child, node = some child → child < tree.size)
    (set : tree.setElement handle position node = some after) (still : after.Shallow)
    (room : ∀ list gone child, handle = some list → tree.element handle position = some gone →
      node = some child → ¬ tree.Overlooks list gone child) :
    Fitted law (fun _ => True) none after := by
  rcases setElement_cases set with rfl | ⟨old, element, replaced⟩
  · exact (fitted.removeAt stable ordered owned acyclic.not_self fun list _ =>
      fitted.calm list).mono fun _ => False.elim
  · exact fitted.replaceChild stable ordered owned acyclic shallow present replaced still
      fun list gone child same old => room list gone child same (element.trans old)

/-- A slot is filled, or its child is replaced or taken away. -/
theorem setChild (fitted : Snug law tree) (owned : tree.Owned)
    (acyclic : tree.Acyclic) (shallow : tree.Shallow) {new : Handle}
    (present : ∀ child, new = some child → child < tree.size)
    (set : tree.setChild handle position new = some after) (still : after.Shallow)
    (room : ∀ list gone child, handle = some list → tree.element handle position = some gone →
      new = some child → ¬ tree.Overlooks list gone child) :
    Fitted law (fun _ => True) none after := by
  rcases owned.setChild_steps present set with rfl | rfl | ⟨old, element, replaced⟩ |
    ⟨parent, child, placed, -, rfl, -, apart, place, whole, rfl⟩
  · exact fitted.mono fun _ => False.elim
  · exact (fitted.removeAt stable ordered owned acyclic.not_self fun list _ =>
      fitted.calm list).mono fun _ => False.elim
  · refine fitted.replaceChild stable ordered owned acyclic shallow present replaced still ?_
    intro list gone child same here given overlooks
    exact room list gone child same ((element (same ▸ overlooks.1)).trans here) given overlooks
  have circleless := owned.placed_acyclic acyclic (shallow parent) apart place whole
  exact ((fitted.placed_upward stable ordered owned acyclic place).widenAncestors stable ordered
    whole circleless (circleless.line child) (.inr (.inl rfl))
    ((still child).respanned (Respanned.widenAncestors _ _).symm)).mono fun _ _ => trivial

end Moving

end Fitted

end ScriptSyntax.Tree
