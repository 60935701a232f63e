import ScriptSyntax.Proofs.Tree.Making

/-! In a tree that is built by calls, spans cover those of the children that stand for text,
with two exceptions. A replacement in a list does not reach the node that holds the list,
and a node that stands for no text can take a child that does without widening. -/
namespace ScriptSyntax

namespace Tree

variable {tree before after : Tree} {law : Span → Prop} {spare : NodeId → Prop}
  {list parent child id : NodeId} {handle : Handle}

namespace Fitted

/-- A list that nothing is above has no spare children. -/
theorem strict_of_root (fitted : Fitted law (tree.Upward list) none tree)
    (root : tree.parentOf (some list) = none) : Snug law tree where
  lawful := fitted.lawful
  fits := fitted.fits
  seen id parent linked firm blank := by
    refine (fitted.seen id parent linked firm blank).imp_right ?_
    rintro (same | higher)
    · rw [same, root] at linked
      cases linked
    · exact absurd higher (not_above_of_root root)

theorem push (fitted : Fitted law spare none tree) (owned : tree.Owned) {node : Node}
    (free : node.parent = none) (holds : law node.span) :
    Fitted law spare none (tree.push node) where
  lawful := fitted.lawful.push holds
  fits id parent linked _ := by
    rw [parentOf_push free] at linked
    rw [spanOf_push node (child_lt linked), spanOf_push node (owned.parent_lt linked)]
    exact fitted.fits id parent linked (Option.some_ne_none _).symm
  seen id parent linked _ := by
    rw [parentOf_push free] at linked
    rw [spanOf_push node (child_lt linked), spanOf_push node (owned.parent_lt linked)]
    exact fitted.seen id parent linked (Option.some_ne_none _).symm

section Making

variable (stable : Span.Stable law) (ordered : ∀ {span}, law span → span.Ordered)

include stable ordered

theorem addList (fitted : Snug law tree) (owned : tree.Owned)
    (acyclic : tree.Acyclic) (family : ListFamily) {span : Span} (holds : law span)
    {elements : List Handle} (present : ∀ child, some child ∈ elements → child < tree.size) :
    Snug law (tree.addList family span elements).tree := by
  refine owned.addList_induct (motive := Snug law) acyclic family present
    (fitted.push owned rfl holds) ?_
  intro before after node still circleless shallow here fitted appended free
  exact (fitted.insert stable ordered still circleless shallow here appended).strict_of_root free

/-- A node takes its children one after another. -/
theorem add (fitted : Snug law tree) (owned : tree.Owned)
    (acyclic : tree.Acyclic) {form : Form} (fixed : form.family? = none) {children : List Handle}
    (present : ∀ child, some child ∈ children → child < tree.size) {span : Span}
    (holds : law span) (admits : form.Admits children) :
    Snug law (tree.add form children span admits).tree := by
  refine (owned.add_induct (motive := fun _ tree => Snug law tree) fixed
    children span admits present (fitted.push owned rfl holds) (fun _ _ _ kept _ => kept) ?_).2
  intro filled middle child building kept _ inside
  have circleless := building.acyclic acyclic
  obtain ⟨free, relinked, -, -, respanned⟩ := building.owned.detach_respanned child
  have size : (middle.detach (some child)).size = tree.size + 1 :=
    respanned.size.trans (relinked.size.trans building.size)
  have there : child < (middle.detach (some child)).size :=
    Nat.lt_of_lt_of_eq (Nat.lt_succ_of_lt inside) size.symm
  have place := adopt_placed there tree.size
  have loose := (kept.detach stable ordered building.owned circleless.not_self
    fun previous _ _ => kept.calm previous).placed place
  have room : tree.size < (middle.adopt tree.size (some child)).size := by
    rw [place.size, size]
    exact Nat.lt_succ_self _
  have held : (middle.adopt tree.size (some child)).parentOf (some child) = some tree.size := by
    rw [place.parentOf, if_neg nofun, if_pos rfl]
  have root : (middle.adopt tree.size (some child)).parentOf (some tree.size) = none := by
    rw [place.parentOf, if_neg nofun, if_neg (Nat.ne_of_gt inside), respanned.parentOf,
      relinked.parentOf, if_neg (Nat.ne_of_gt inside), building.free]
  rw [widenOver_eq room (child_lt held)]
  have union := stable.union (loose.lawful.spanOf room) (loose.lawful.spanOf (child_lt held))
  refine loose.setSpan room (by rw [root]; nofun) union ?_ (fun id linked => ?_) fun _ linked => ?_
  · rintro id same
    exact .inl (Option.some.inj same ▸ held)
  · obtain ⟨covers, blank⟩ :=
      loose.unionWith ordered (child_lt held) (fun _ _ => not_false) id linked
    exact ⟨covers, fun empty => .inl (blank empty)⟩
  · rw [root] at linked
    cases linked

/-- Every constructor keeps spans covered, and hollows out no node. -/
theorem build (fitted : Snug law tree) (owned : tree.Owned)
    (acyclic : tree.Acyclic) (construction : Construction) {span : Span} (holds : law span)
    (present : ∀ child, some child ∈ construction.handles → child < tree.size) :
    Snug law (construction.build tree span).tree :=
  owned.build_induct (motive := Snug law) stable acyclic
    (fitted.addList stable ordered owned acyclic)
    (fun still circleless kept => kept.add stable ordered still circleless) construction holds
    present fitted

theorem commaAround (fitted : Snug law tree) (owned : tree.Owned)
    (acyclic : tree.Acyclic) (present : id < tree.size) {span : Span} (holds : law span) :
    Snug law (tree.commaAround id span).tree :=
  owned.commaAround_induct (motive := Snug law) stable acyclic
    (fitted.addList stable ordered owned acyclic)
    (fun still circleless kept => kept.add stable ordered still circleless) fitted present holds

/-- Joining two expressions by a comma. A list above both of them from which the emptied
right one goes is calm: it was above all that moved. -/
theorem combineWithComma (fitted : Snug law tree) (owned : tree.Owned)
    (acyclic : tree.Acyclic) (shallow : tree.Shallow) {left right : Handle}
    (present : ∀ child, some child ∈ [left, right] → child < tree.size) :
    Fitted law (fun _ => True) none (tree.combineWithComma left right).1 := by
  rcases owned.combineWithComma_steps present with same | ⟨id, node, rfl, inside, found, rest⟩
  · rw [same]
    exact fitted.mono fun _ => False.elim
  have holds : law node.span := fitted.lawful (some id) _ (by rw [span?, found]; rfl)
  have sequence := fitted.commaAround stable ordered owned acyclic inside holds
  obtain ⟨still, -, circleless, -⟩ := owned.commaAround inside node.span
  have circleless := circleless acyclic
  dsimp only at rest
  generalize (tree.commaAround id node.span).tree = middle at rest sequence still circleless
  rcases rest with same | ⟨target, child, position, joined, depth, there, inserted, rest⟩
  · rw [same]
    exact sequence.mono fun _ => False.elim
  have depth := depth shallow
  have here : ∀ other, some child = some other → other < middle.size :=
    fun other same => Option.some.inj same ▸ there
  have kept := sequence.insert stable ordered still circleless depth here inserted
  rcases rest with same | ⟨previous, other, linked, below, fixed, same⟩
  · rw [same]
    exact kept.mono fun _ _ => trivial
  have joins := still.insert here inserted
  obtain ⟨unbroken, higher⟩ := joins.acyclic circleless depth
  rw [same]
  refine (kept.removeChild stable ordered (joins.owned still).1 unbroken.not_self linked
    fun _ => ?_).mono fun _ _ => trivial
  by_cases upper : joined.Above previous target
  · have apart : previous ≠ target := by
      rintro rfl
      exact unbroken _ upper
    have old := (joins.link linked).resolve_right apart
    refine sequence.insert_calm stable ordered still circleless depth (fun holder held => ?_)
      inserted (higher previous upper) ((Above.of_parent old).lift below)
    rw [below] at held
    exact Option.some.inj held ▸ fixed
  · intro blank element member
    refine (kept.seen element previous member (Option.some_ne_none _).symm blank).resolve_right ?_
    rintro (rfl | up)
    · exact upper (.of_parent member)
    · exact upper (up.tail member)

end Making

theorem respanned (fitted : Fitted law spare none before) (respanned : Respanned before after)
    (same : ∀ place, after.span? place = before.span? place) : Fitted law spare none after where
  lawful := fitted.lawful.of_same same
  fits id parent linked _ := by
    rw [spanOf_congr (same _), spanOf_congr (same _)]
    exact fitted.fits id parent (respanned.parentOf _ ▸ linked) nofun
  seen id parent linked _ := by
    rw [spanOf_congr (same _), spanOf_congr (same _)]
    exact fitted.seen id parent (respanned.parentOf _ ▸ linked) nofun

/-- A change that may be refused. -/
theorem getD (fitted : Snug law tree) {changed : Option Tree}
    (kept : ∀ after, changed = some after → Fitted law (fun _ => True) none after) :
    Fitted law (fun _ => True) none (changed.getD tree) := by
  cases changed with
  | none => exact fitted.mono fun _ => False.elim
  | some after => exact kept after rfl

end Fitted

/-- Every span covers the spans of the children below it, but for those that stand for no
text. -/
def Covered (tree : Tree) : Prop :=
  ∀ parent, ∀ child ∈ tree.children (some parent),
    (tree.spanOf child).Fits (tree.spanOf parent)

/-- The node stands for no text, but has a child that does. -/
def Hollow (tree : Tree) (id : NodeId) : Prop :=
  (tree.spanOf id).isPlaceholder ∧
    ∃ child ∈ tree.children (some id), ¬ (tree.spanOf child).isPlaceholder

theorem Covered.fitted (covered : tree.Covered) (owned : tree.Owned) (lawful : tree.SpansAre law)
    (clear : ∀ id, ¬ tree.Hollow id) : Snug law tree where
  lawful := lawful
  fits child parent linked _ := covered parent child (owned.mem_children_iff.mpr linked)
  seen child parent linked _ blank := by
    by_contra solid
    exact clear parent ⟨blank, child, owned.mem_children_iff.mpr linked,
      fun none => solid (.inl none)⟩

theorem Fitted.covered (fitted : Fitted law spare none tree) (owned : tree.Owned) :
    tree.Covered :=
  fun parent child member => fitted.fits child parent (owned.mem_children_iff.mp member) nofun

theorem isList_of_family? (tree : Tree) (isList : (tree.family? handle).isSome) :
    ∃ node, tree.get? handle = some node ∧ node.isList := by
  obtain ⟨family, same⟩ := Option.isSome_iff_exists.mp isList
  obtain ⟨node, found, form⟩ := Option.bind_eq_some_iff.mp same
  exact ⟨node, found, by rw [Node.isList, Form.isList, form]; rfl⟩

theorem setElement_eq (tree : Tree) {gone position : Nat}
    (element : tree.element handle position = some gone)
    (replaced : tree.replaceChild handle (some gone) (some child) = some after) :
    tree.setElement handle position (some child) = some after := by
  simp only [setElement, element, Option.bind_eq_bind, Option.bind_some, Option.isNone_some,
    Bool.false_eq_true, if_false, replaced]

/-- A replacement that overlooks the holder of the list is carried out. -/
theorem Overlooks.replaceChild {gone : NodeId} (overlooks : tree.Overlooks list gone child)
    (owned : tree.Owned) :
    ∃ after, tree.replaceChild (some list) (some gone) (some child) = some after := by
  obtain ⟨isList, member, distinct, apart, -⟩ := overlooks
  have detached := owned.detach_moved child list
  have kept : some gone ∈ (tree.adopt list (some child)).slots (some list) := by
    rw [adopt_slots, detached.owned.mem_slots_iff, owned.detach_parentOf, if_neg distinct]
    exact owned.mem_slots_iff.mp member
  have found {tree : Tree} (held : some gone ∈ tree.slots (some list)) :
      ∃ node, tree.get? (some list) = some node ∧
        ∃ position, node.slotOf? (some gone) = some position := by
    cases same : tree.get? (some list) with
    | none => simp [slots, same] at held
    | some node =>
      rw [slots_of_get? same] at held
      obtain ⟨position, first, -⟩ := Node.slotOf?_eq_some held
      exact ⟨node, rfl, position, first⟩
  obtain ⟨node, stands, position, first⟩ := found member
  obtain ⟨moved, remains, place, still⟩ := found kept
  have differ : ¬ (some gone = some child) := fun same => distinct (Option.some.inj same)
  simp [Tree.replaceChild, stands, first, differ, apart, remains, still]

/-- It leaves the list with a span that the holder does not cover. -/
theorem Overlooks.uncovers {gone : NodeId} (overlooks : tree.Overlooks list gone child)
    (owned : tree.Owned) (acyclic : tree.Acyclic) (reads : tree.SpansAre Span.Ordered)
    (present : child < tree.size)
    (replaced : tree.replaceChild (some list) (some gone) (some child) = some after) :
    ¬ after.Covered := by
  obtain ⟨isList, member, distinct, apart, holder, above, short⟩ := overlooks
  rcases owned.replaceChild_steps (fun id same => Option.some.inj same ▸ present) replaced with
    ⟨same, -⟩ | ⟨parent, old, here, same, held, ⟨given, -⟩ |
      ⟨new, node, placed, given, differ, -, found, place, whole, rfl⟩⟩
  · exact absurd (Option.some.inj same) distinct
  · cases given
  obtain rfl := Option.some.inj here
  obtain rfl := Option.some.inj same
  obtain rfl := Option.some.inj given
  have links := owned.parentOf_placed place
  have top : placed.parentOf (some list) = some holder := by
    rw [links, if_neg, if_neg (not_encloses_self_ne apart).symm, above]
    rintro same
    exact acyclic.not_self list (Option.some.inj same ▸ held)
  have installed : placed.parentOf (some child) = some list := by
    rw [links, if_neg fun same => distinct (Option.some.inj same), if_pos rfl]
  have room := whole.parent_lt installed
  have lawful : placed.SpansAre Span.Ordered :=
    (reads.detach Span.stable_ordered owned child).of_same place.span?
  have list' : node.isList := by
    rw [family?_of_get? found] at isList
    exact isList
  have hull := listHull_fits lawful (placed.spanOf list) (whole.mem_slots_iff.mpr installed)
    (span?_eq (child_lt installed))
  have spans := spanOf_setSpan room
    (placed.listHull (placed.spanOf list) (placed.slots (some list)))
  have respanned := Respanned.recomputeListSpan placed (some list)
  have below : holder ≠ list := fun same => acyclic.not_self list (same ▸ above)
  rw [Tree.refreshIfList, if_pos list', Tree.widenAncestors, bubbleSpan_of_fits
    ((respanned.parentOf _).trans installed) (respanned.size ▸ room)]
  · intro covered
    have edge := covered holder list ((whole.respanned respanned).mem_children_iff.mpr
      ((respanned.parentOf _).trans top))
    rw [recomputeListSpan_eq room, spans, spans, if_pos rfl, if_neg below] at edge
    rw [← spanOf_congr (place.span? _), ← spanOf_congr (place.span? _)] at short
    rcases edge with blank | wide
    · exact short (.inl (hull.2 blank))
    · exact short (hull.1.imp_right wide.trans)
  · rw [recomputeListSpan_eq room, spans, spans, if_pos rfl, if_neg (not_encloses_self_ne apart)]
    exact hull.1

end Tree

namespace Operation

/-- The span that the call is given, if it is given one. -/
def span? : Operation → Option Span
  | make _ span => some span
  | _ => none

/-- A span that is given does not end before it starts, and no node has more nodes above
it than are followed. -/
structure Regular (operation : Operation) (tree : Tree) : Prop where
  ordered : ∀ span ∈ operation.span?, span.Ordered
  before : tree.Shallow
  after : (operation.apply tree).Shallow

/-- The call puts `child` where `gone` is in `list`. -/
def Replaces (tree : Tree) (list gone child : NodeId) : Operation → Prop
  | replaceChild parent old new => parent = some list ∧ old = some gone ∧ new = some child
  | setElement parent position new | setChild parent position new =>
    parent = some list ∧ tree.element parent position = some gone ∧ new = some child
  | _ => False

/-- The call replaces an element of a list by a child that does not fit the node that
holds the list. -/
def Overlooks (operation : Operation) (tree : Tree) : Prop :=
  ∃ list gone child, operation.Replaces tree list gone child ∧ tree.Overlooks list gone child

/-- A regular call that overlooks no node, where none is hollow. -/
structure Careful (operation : Operation) (tree : Tree) : Prop where
  regular : operation.Regular tree
  clear : ∀ id, ¬ tree.Hollow id
  overlooks : ¬ operation.Overlooks tree

variable {tree : Tree} {law : Span → Prop}

/-- Where no node is hollow, a call that overlooks nothing keeps spans covered. -/
theorem apply_fitted (operation : Operation) (stable : Span.Stable law)
    (ordered : ∀ {span}, law span → span.Ordered)
    (fitted : Tree.Snug law tree) (owned : tree.Owned)
    (acyclic : tree.Acyclic) (admissible : operation.Admissible tree)
    (regular : operation.Regular tree) (holds : ∀ span ∈ operation.span?, law span)
    (careful : ¬ operation.Overlooks tree) :
    Tree.Fitted law (fun _ => True) none (operation.apply tree) := by
  have shallow := regular.before
  have still := regular.after
  cases operation with
  | make construction span =>
    exact (fitted.build stable ordered owned acyclic construction (holds span rfl)
      admissible.lt).mono fun _ => False.elim
  | append list node | insert list position node =>
    refine fitted.getD fun after changed => ?_
    obtain ⟨target, -, -, rfl, -⟩ := Tree.insert_cases changed
    exact (fitted.insert stable ordered owned acyclic (shallow target)
      (fun child same => admissible.lt child (by simp [handles, same])) changed).mono
        fun _ _ => trivial
  | setElement list position node =>
    refine fitted.getD fun after changed => ?_
    rw [apply, changed] at still
    exact fitted.setElement stable ordered owned acyclic shallow
      (fun child same => admissible.lt child (by simp [handles, same])) changed still
      fun target gone child same element given overlooks =>
        careful ⟨target, gone, child, ⟨same, element, given⟩, overlooks⟩
  | removeAt list position =>
    exact (fitted.removeAt stable ordered owned acyclic.not_self fun list _ =>
      fitted.calm list).mono fun _ => False.elim
  | replaceChild parent old new =>
    refine fitted.getD fun after changed => ?_
    rw [apply, changed] at still
    exact fitted.replaceChild stable ordered owned acyclic shallow
      (fun child same => admissible.lt child (by simp [handles, same])) changed still
      fun target gone child same element given overlooks =>
        careful ⟨target, gone, child, ⟨same, element, given⟩, overlooks⟩
  | setChild parent position new =>
    refine fitted.getD fun after changed => ?_
    rw [apply, changed] at still
    exact fitted.setChild stable ordered owned acyclic shallow
      (fun child same => admissible.lt child (by simp [handles, same])) changed still
      fun target gone child same element given overlooks =>
        careful ⟨target, gone, child, ⟨same, element, given⟩, overlooks⟩
  | combineWithComma left right =>
    exact fitted.combineWithComma stable ordered owned acyclic shallow admissible.lt
  | setScope node scope =>
    refine fitted.getD fun after changed => ?_
    exact (fitted.respanned (Tree.setScope_respanned changed)
      (Tree.setScope_span? changed)).mono fun _ => False.elim
  | bindLookup node scopes =>
    refine fitted.getD fun after changed => ?_
    obtain ⟨bound, binds, rfl⟩ := Option.map_eq_some_iff.mp changed
    exact (fitted.respanned (Tree.bindLookup_respanned binds)
      (Tree.bindLookup_span? binds)).mono fun _ => False.elim

/-- A call that overlooks a node uncovers it. -/
theorem Overlooks.uncovers {operation : Operation} (overlooks : operation.Overlooks tree)
    (owned : tree.Owned) (acyclic : tree.Acyclic) (reads : tree.SpansAre Span.Ordered)
    (admissible : operation.Admissible tree) : ¬ (operation.apply tree).Covered := by
  obtain ⟨list, gone, child, replaces, overlooks⟩ := overlooks
  have present (named : some child ∈ operation.handles) : child < tree.size :=
    admissible.lt child named
  obtain ⟨after, replaced⟩ := overlooks.replaceChild owned
  cases operation with
  | replaceChild parent old new =>
    obtain ⟨rfl, rfl, rfl⟩ := replaces
    rw [apply, replaced]
    exact overlooks.uncovers owned acyclic reads (present (by simp [handles])) replaced
  | setElement parent position new =>
    obtain ⟨rfl, element, rfl⟩ := replaces
    have same : tree.setElement (some list) position (some child) = some after :=
      Tree.setElement_eq tree element replaced
    rw [apply, same]
    exact overlooks.uncovers owned acyclic reads (present (by simp [handles])) replaced
  | setChild parent position new =>
    obtain ⟨rfl, element, rfl⟩ := replaces
    have same : tree.setChild (some list) position (some child) = some after := by
      obtain ⟨node, found, isNode⟩ := tree.isList_of_family? overlooks.1
      rw [Tree.setChild, found]
      simp only [Option.bind_eq_bind, Option.bind_some, if_pos isNode]
      exact Tree.setElement_eq tree element replaced
    rw [apply, same]
    exact overlooks.uncovers owned acyclic reads (present (by simp [handles])) replaced
  | _ => exact replaces.elim

end Operation

namespace Tree

variable {tree : Tree} {law : Span → Prop} {allowed : Tree → Operation → Prop}

theorem covered_empty : ({} : Tree).Covered := by
  intro parent child member
  simp [children, get?] at member

/-- Nothing is hollow where all spans have source, or none has: what is covered by a span of
no width has no width itself. -/
theorem Covered.not_hollow (covered : tree.Covered) (owned : tree.Owned) {sourced : Bool}
    (uniform : tree.SpansAre fun span => span.Ordered ∧ span.lines.isSome = sourced) (id : NodeId) :
    ¬ tree.Hollow id := by
  rintro ⟨blank, child, member, solid⟩
  have linked := owned.mem_children_iff.mp member
  obtain ⟨-, same⟩ := uniform.spanOf (owned.parent_lt linked)
  obtain ⟨order, also⟩ := uniform.spanOf (child_lt linked)
  have wide := (covered id child member).resolve_left solid
  rw [Span.isPlaceholder_iff] at blank solid
  rw [blank.2] at same
  rw [← same] at also
  refine solid ⟨Nat.le_antisymm order ?_, by simpa using also⟩
  exact Nat.le_trans wide.2 (blank.1 ▸ wide.1)

/-- Calls keep spans covered as long as none overlooks a node and none is made where a node
is hollow. -/
theorem Reached.covered (stable : Span.Stable law) (ordered : ∀ {span}, law span → span.Ordered)
    (reached : Reached allowed tree)
    (careful : ∀ tree operation, allowed tree operation → operation.Regular tree ∧
      (∀ span ∈ operation.span?, law span) ∧ ¬ operation.Overlooks tree ∧
      (tree.Owned → tree.Covered → tree.SpansAre law → ∀ id, ¬ tree.Hollow id)) :
    tree.Covered ∧ tree.SpansAre law := by
  induction reached with
  | empty =>
    refine ⟨covered_empty, fun handle span found => ?_⟩
    cases handle <;> simp [Tree.span?, get?] at found
  | @step tree operation reached admissible allows ih =>
    obtain ⟨covered, lawful⟩ := ih
    obtain ⟨regular, holds, overlooks, clear⟩ := careful tree operation allows
    have acyclic := reached.acyclic fun tree operation allows =>
      (careful tree operation allows).1.before
    have fitted := covered.fitted reached.owned lawful (clear reached.owned covered lawful)
    have after := operation.apply_fitted stable ordered fitted reached.owned acyclic admissible
      regular holds overlooks
    exact ⟨after.covered (Reached.step reached admissible allows).owned, after.lawful⟩

/-- Spans are covered in every tree that calls make, if none overlooks a node and none is
made where a node is hollow. From there a call that overlooks a node uncovers it; where no
node is hollow only such a call does. No node is hollow where all spans have source, or
none has. -/
theorem Reached.coverage
    (reached : Reached (fun tree operation => operation.Careful tree) tree) :
    tree.Covered ∧
      (∀ sourced, tree.SpansAre (fun span => span.lines.isSome = sourced) →
        ∀ id, ¬ tree.Hollow id) ∧
      ∀ operation : Operation, operation.Admissible tree → operation.Regular tree →
        (operation.Overlooks tree → ¬ (operation.apply tree).Covered) ∧
        ((∀ id, ¬ tree.Hollow id) →
          ((operation.apply tree).Covered ↔ ¬ operation.Overlooks tree)) := by
  have keeps : ∀ tree, Reached (fun tree operation => operation.Careful tree) tree →
      tree.Covered ∧ tree.SpansAre Span.Ordered :=
    fun tree reached => reached.covered Span.stable_ordered id fun tree operation careful =>
      ⟨careful.regular, careful.regular.ordered, careful.overlooks, fun _ _ _ => careful.clear⟩
  obtain ⟨covered, reads⟩ := keeps tree reached
  have acyclic := reached.acyclic fun tree operation careful => careful.regular.before
  refine ⟨covered, fun sourced uniform => ?_, fun operation admissible regular => ?_⟩
  · exact covered.not_hollow reached.owned fun handle span found =>
      ⟨reads handle span found, uniform handle span found⟩
  have uncovers (overlooks : operation.Overlooks tree) : ¬ (operation.apply tree).Covered :=
    overlooks.uncovers reached.owned acyclic reads admissible
  refine ⟨uncovers, fun clear => ⟨fun kept overlooks => uncovers overlooks kept, ?_⟩⟩
  intro overlooks
  exact (keeps _ (.step reached admissible ⟨regular, clear, overlooks⟩)).1

instance (tree : Tree) (id : NodeId) : Decidable (tree.Hollow id) :=
  inferInstanceAs (Decidable (_ ∧ _))

theorem not_hollow_of_lt (clear : ∀ id < tree.size, ¬ tree.Hollow id) (id : NodeId) :
    ¬ tree.Hollow id := by
  rintro ⟨blank, child, member, solid⟩
  refine clear id ?_ ⟨blank, child, member, solid⟩
  by_contra outside
  simp [children, get?_eq_none (Nat.le_of_not_lt outside)] at member

end Tree

namespace Operation

variable {tree : Tree} {allowed : Tree → Operation → Prop}

/-- A call on a tree that is small enough. -/
theorem regular_of_size {operation : Operation} (reached : Tree.Reached allowed tree)
    (admissible : operation.Admissible tree) (ordered : ∀ span ∈ operation.span?, span.Ordered)
    (small : (operation.apply tree).size ≤ ancestorLimit) : operation.Regular tree := by
  have sound := operation.apply_sound reached.owned admissible
  exact ⟨ordered, reached.owned.shallow (Nat.le_trans sound.size small), sound.owned.shallow small⟩

theorem Overlooks.family {position : Nat} {parent new : Handle}
    (overlooks : (setChild parent position new).Overlooks tree) :
    (tree.family? parent).isSome := by
  obtain ⟨list, _, _, ⟨rfl, -⟩, isList, -⟩ := overlooks
  exact isList

/-- Making a node overlooks none. -/
theorem careful_make {construction : Construction} {span : Span}
    (reached : Tree.Reached allowed tree)
    (admissible : (make construction span).Admissible tree) (ordered : span.Ordered)
    (small : ((make construction span).apply tree).size ≤ ancestorLimit)
    (clear : ∀ id < tree.size, ¬ tree.Hollow id) : (make construction span).Careful tree where
  regular := regular_of_size reached admissible (by simpa [span?] using ordered) small
  clear := Tree.not_hollow_of_lt clear
  overlooks := by
    rintro ⟨_, _, _, replaces, -⟩
    exact replaces

end Operation

namespace Tree

theorem Reached.step_regular {operation : Operation}
    (reached : Reached (fun tree operation => operation.Regular tree) tree)
    (admissible : operation.Admissible tree) (ordered : ∀ span ∈ operation.span?, span.Ordered)
    (small : (operation.apply tree).size ≤ ancestorLimit) :
    Reached (fun tree operation => operation.Regular tree) (operation.apply tree) :=
  .step reached admissible (Operation.regular_of_size reached admissible ordered small)

/-- The list of a block grows over a new statement, the block does not. -/
theorem coverage_of_replaced_statement :
    let statement := (Operation.make (.lookup "a") (.detached 0 5 .none)).apply {}
    let block := (Operation.make (.block [some 0]) (.detached 0 10 .none)).apply statement
    let both := (Operation.make (.lookup "b") (.detached 20 30 .none)).apply block
    let replacement := Operation.replaceChild (some 1) (some 0) (some 3)
    Reached (fun tree operation => operation.Careful tree) both ∧
      replacement.Admissible both ∧ replacement.Regular both ∧ replacement.Overlooks both ∧
      both.Covered ∧ ¬ (replacement.apply both).Covered := by
  intro statement block both replacement
  have none : Reached (fun tree operation => operation.Careful tree) {} := .empty
  have first : Reached (fun tree operation => operation.Careful tree) statement :=
    .step .empty (by decide) (Operation.careful_make none (by decide) (by decide) (by decide)
      (by decide))
  have second : Reached (fun tree operation => operation.Careful tree) block :=
    .step first (by decide) (Operation.careful_make first (by decide) (by decide) (by decide)
      (by decide))
  have third : Reached (fun tree operation => operation.Careful tree) both :=
    .step second (by decide) (Operation.careful_make second (by decide) (by decide) (by decide)
      (by decide))
  have admissible : replacement.Admissible both := by decide
  have regular : replacement.Regular both :=
    Operation.regular_of_size third admissible nofun (by decide)
  have overlooks : replacement.Overlooks both :=
    ⟨1, 0, 3, ⟨rfl, rfl, rfl⟩, by decide, by decide, by decide, by decide, 2, by decide, by decide⟩
  obtain ⟨covered, -, next⟩ := third.coverage
  exact ⟨third, admissible, regular, overlooks, covered,
    (next replacement admissible regular).1 overlooks⟩

/-- Not all calls keep spans covered. -/
theorem not_covered_of_replaced_statement :
    ¬ ∀ tree, Reached (fun tree operation => operation.Regular tree) tree → tree.Covered := by
  intro all
  let statement := (Operation.make (.lookup "a") (.detached 0 5 .none)).apply {}
  let block := (Operation.make (.block [some 0]) (.detached 0 10 .none)).apply statement
  let both := (Operation.make (.lookup "b") (.detached 20 30 .none)).apply block
  let replaced := (Operation.replaceChild (some 1) (some 0) (some 3)).apply both
  have none : Reached (fun tree operation => operation.Regular tree) {} := .empty
  have first : Reached (fun tree operation => operation.Regular tree) statement :=
    none.step_regular (by decide) (by decide) (by decide)
  have second : Reached (fun tree operation => operation.Regular tree) block :=
    first.step_regular (by decide) (by decide) (by decide)
  have third : Reached (fun tree operation => operation.Regular tree) both :=
    second.step_regular (by decide) (by decide) (by decide)
  have last : Reached (fun tree operation => operation.Regular tree) replaced :=
    third.step_regular (by decide) (by decide) (by decide)
  have short : ¬ (replaced.spanOf 1).Fits (replaced.spanOf 2) := by decide
  exact short (all replaced last 2 1 (by decide))

/-- Nor do all that overlook no node: an operand of no width fits into a sum without a span
of its own, which then takes the span of the other operand. -/
theorem not_covered_of_hollow_sum :
    ¬ ∀ tree, Reached (fun tree operation => operation.Regular tree ∧
      ¬ operation.Overlooks tree) tree → tree.Covered := by
  intro all
  let table := LineTable.ofText [] ⟨0, 1, 1⟩
  let sum := (Operation.make (.binary (.punctuator .plus) none none) .empty).apply {}
  let narrow := (Operation.make (.lookup "a") ⟨0, 0, .none, some table⟩).apply sum
  let both := (Operation.make (.lookup "b") (.detached 2 3 .none)).apply narrow
  let left := (Operation.setChild (some 0) 0 (some 1)).apply both
  let right := (Operation.setChild (some 0) 1 (some 2)).apply left
  let allowed : Tree → Operation → Prop := fun tree operation =>
    operation.Regular tree ∧ ¬ operation.Overlooks tree
  have make {tree : Tree} {construction : Construction} {span : Span}
      (reached : Reached allowed tree)
      (admissible : (Operation.make construction span).Admissible tree) (ordered : span.Ordered)
      (small : ((Operation.make construction span).apply tree).size ≤ ancestorLimit)
      (clear : ∀ id < tree.size, ¬ tree.Hollow id) :
      Reached allowed ((Operation.make construction span).apply tree) :=
    have careful := Operation.careful_make reached admissible ordered small clear
    .step reached admissible ⟨careful.regular, careful.overlooks⟩
  have fill {tree : Tree} {position : Nat} {parent new : Handle} (reached : Reached allowed tree)
      (admissible : (Operation.setChild parent position new).Admissible tree)
      (small : ((Operation.setChild parent position new).apply tree).size ≤ ancestorLimit)
      (fixed : ¬ (tree.family? parent).isSome) :
      Reached allowed ((Operation.setChild parent position new).apply tree) :=
    .step reached admissible ⟨Operation.regular_of_size reached admissible nofun small,
      fun overlooks => fixed overlooks.family⟩
  have first : Reached allowed sum :=
    make .empty (by decide) (by decide) (by decide) (by decide)
  have second : Reached allowed narrow :=
    make first (by decide) (by decide) (by decide) (by decide)
  have third : Reached allowed both :=
    make second (by decide) (by decide) (by decide) (by decide)
  have fourth : Reached allowed left := fill third (by decide) (by decide) (by decide)
  have fifth : Reached allowed right := fill fourth (by decide) (by decide) (by decide)
  have short : ¬ (right.spanOf 1).Fits (right.spanOf 0) := by decide
  exact short (all right fifth 0 1 (by decide))

end Tree

end ScriptSyntax
