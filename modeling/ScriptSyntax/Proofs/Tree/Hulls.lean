import ScriptSyntax.Proofs.Tree.Coverage
import ScriptSyntax.Proofs.Tree.Insertion
import ScriptSyntax.Proofs.Tree.Tightening
import Mathlib.Order.Bounds.Basic

/-! In a tree that is built by calls, the span of a list is the hull of the spans of its
elements, as long as no list is extended that stands for no text but has elements that do. -/
namespace ScriptSyntax

namespace Tree

variable {tree before after : Tree} {behind : Nat → Nat} {law : Span → Prop} {lax : Prop}
  {spare : NodeId → Prop}
  {loose : Handle} {list target parent child id : NodeId} {position : Nat} {handle : Handle}

/-- An element that has just been put into the list is loose. -/
theorem Hugs.placed (hugs : Hugs lax spare none before list)
    (placed : Placed before after list child none) :
    Hugs lax spare (some child) after list := by
  have spans (id : NodeId) : after.spanOf id = before.spanOf id := spanOf_congr (placed.span? _)
  refine hugs.carry (spans list) (fun id counts => ⟨⟨?_, ?_⟩, .inl ⟨spans id, nofun⟩⟩)
    fun id counts other => ⟨⟨?_, spans id ▸ counts.solid⟩, nofun, spans id⟩
  · rw [placed.parentOf, if_neg nofun]
    split
    · rfl
    · exact counts.held
  · exact (spans id).symm ▸ counts.solid
  · rw [← counts.held, placed.parentOf, if_neg nofun,
      if_neg fun same => other (congrArg some same.symm)]

theorem Owned.exists_element (owned : tree.Owned) (isList : (tree.family? (some list)).isSome)
    (filled : (tree.slots (some list)).isEmpty ≠ true) :
    ∃ id, tree.parentOf (some id) = some list := by
  obtain ⟨handle, member⟩ := List.exists_mem_of_ne_nil _ (mt List.isEmpty_iff.mpr filled)
  cases handle with
  | none => exact absurd member (owned.dense list isList)
  | some id => exact ⟨id, owned.mem_slots_iff.mp member⟩

namespace Taut

/-- Nothing above a node is an element of the list if nothing is above it. -/
theorem of_root (taut : Taut law lax (fun id => lax ∨ tree.Upward target id) loose tree list)
    (root : tree.parentOf (some target) = none) :
    Taut law lax (fun _ => lax) loose tree list where
  lawful := taut.lawful
  hugs isList flat some :=
    have hugs := taut.hugs isList flat some
    { hugs with
      blank blank id counts firm := by
        refine (hugs.blank blank id counts firm).imp_left (Or.rec (fun free => free) fun up => ?_)
        rcases up with rfl | higher
        · exact absurd (root.symm.trans counts.held) nofun
        · exact absurd higher (not_above_of_root root) }

section Moving

variable (stable : Span.Stable law) (ordered : ∀ {span}, law span → span.Ordered)

include stable ordered

/-- The span of `target` takes in a new element. -/
theorem inserted {placed : Tree} {alone : Bool}
    (taut : Taut law lax (fun id => lax ∨ placed.Upward target id) none before list)
    (free : before.parentOf (some child) = none) (former : before.Owned)
    (place : Placed before placed target child none) (owned : placed.Owned)
    (acyclic : placed.Acyclic) (held : placed.parentOf (some child) = some target)
    (isList : (placed.family? (some target)).isSome)
    (others : alone = (before.slots (some target)).isEmpty) :
    Taut law lax (fun id => lax ∨ placed.Upward target id) none
      (if alone then placed.recomputeListSpan (some target)
        else placed.widenOver (some target) (some child)) list := by
  have room := owned.parent_lt held
  have lawful : placed.SpansAre law := taut.lawful.of_same place.span?
  have union := stable.union (lawful.spanOf room) (lawful.spanOf (child_lt held))
  by_cases own : target = list
  · subst own
    -- a list that was empty is given the span of the new element, another is widened over it
    split
    · exact of_recompute stable ordered lawful owned.upTo isList (acyclic.not_self target)
    next accompanied =>
    rw [widenOver_eq room (child_lt held)]
    refine ⟨lawful.setSpan union _, fun _ flat _ => ?_⟩
    have respanned := Respanned.setSpan placed (some target)
      ((placed.spanOf target).union (placed.spanOf child))
    have flat : before.Flat target := fun id below => by
      rw [← place.family?, ← respanned.family?]
      refine flat id ((respanned.parentOf _).trans ?_)
      rw [place.parentOf, if_neg nofun, below, ite_self]
    have listed : (before.family? (some target)).isSome := place.family? _ ▸ isList
    have hugs := (taut.hugs listed flat
      (former.exists_element listed fun empty => accompanied (others.trans empty))).placed place
    -- only what is above the list is spare, and no element is
    refine hugs.widen room held (acyclic.not_self target)
      (ordered (lawful.spanOf (child_lt held))) fun id counts _ also => ?_
    exact also.resolve_right (acyclic.not_upward_of_parent counts.held)
  · have elsewhere := taut.undisturbed (.placed place own free nofun) lawful
    split
    · exact elsewhere.recompute_other stable isList own
    · rw [widenOver_eq room (child_lt held)]
      exact elsewhere.setSpan_list isList own union

/-- A child becomes an element of `target`. -/
theorem insertElement (taut : Taut law lax (fun id => lax ∨ tree.Upward target id) none tree list)
    (owned : tree.Owned) (acyclic : tree.Acyclic) (shallow : tree.ShallowAt target)
    (present : child < tree.size)
    (inserted : tree.insertElement target position (some child) = some after) :
    Taut law lax (fun id => lax ∨ after.Upward target id) none after list := by
  obtain ⟨-, placed, alone, others, place, still, circleless, depth, respanned, links, same⟩ :=
    owned.insertElement_placed acyclic shallow present inserted
  have isList := (owned.insertElement_steps present inserted).2.1
  have upward (id : NodeId) : after.Upward target id ↔ tree.Upward target id :=
    owned.insertElement_upward acyclic shallow present inserted
  have detached := owned.detach_moved child target
  have left := taut.detach stable ordered owned.upTo (acyclic.not_self list) child
  have fitted := (left.mono fun id => Or.imp_right fun up =>
      respanned.upward_iff.mp ((upward id).mpr up)).inserted stable ordered
    (owned.detach_free child) detached.owned place still circleless
    (by rw [links, if_pos rfl]) (by rw [place.family?, detached.family?]; exact isList) others
  have refit := Respanned.fitList placed (some target) (some child) alone
  rw [same]
  refine (((fitted.loosen (some target)).mono fun id => Or.imp_right
    refit.upward_iff.mpr).widenAncestors stable ordered (still.respanned refit)
      (circleless.respanned refit) (depth.respanned refit)).mono fun id => Or.imp_right ?_
  exact (Respanned.widenAncestors _ _).upward_iff.mpr

theorem removeAt (taut : Taut law lax spare none tree list) (owned : tree.Owned)
    (apart : tree.parentOf (some list) ≠ some list) (handle : Handle) (position : Nat) :
    Taut law lax spare none (tree.removeAt handle position).1 list := by
  rcases removeAt_cases tree handle position with same | ⟨source, removed, rfl, isList, there, -⟩
  · rwa [same]
  obtain ⟨child, rfl, -⟩ := owned.unlink_element isList there
  rw [owned.removeAt_eq_detach isList there]
  exact taut.detach stable ordered owned.upTo apart child

/-- One list gives up its elements to another that it does not enclose. -/
theorem moveElements (taut : Taut law lax (fun id => lax ∨ tree.Upward target id) none tree list)
    (owned : tree.Owned) (acyclic : tree.Acyclic) (shallow : tree.ShallowAt target)
    {source : NodeId} (outside : ¬ tree.Upward target source)
    (isList : (tree.family? (some source)).isSome) (position : Nat) :
    let after := tree.moveElements behind target source (tree.slots (some source)).length position
    Taut law lax (fun id => lax ∨ after.Upward target id) none after list := by
  refine (owned.moveElements_induct
    (motive := fun middle => Moves target tree middle ∧
      Taut law lax (fun id => lax ∨ middle.Upward target id) none middle list)
    (fun same => outside (.inl same)) isList rfl ⟨.refl, taut⟩ ?_ ?_).2
  · intro middle still ⟨moves, kept⟩
    obtain ⟨circleless, higher⟩ := moves.acyclic acyclic shallow
    refine ⟨moves.trans (still.removeAt _ _ _).moves, ?_⟩
    refine (kept.removeAt stable ordered still (circleless.not_self list) _ _).mono fun id =>
      Or.imp_right fun upward => upward.kept fun other above up linked => ?_
    refine still.removeAt_parentOf linked (fun same => ?_) 0
    exact outside ((Option.some.inj same ▸ up.of_parent linked).imp_right (higher source))
  · intro _ middle next child place _ _ still ⟨moves, kept⟩ present _ inserted
    exact ⟨moves.trans (still.insertElement present inserted),
      kept.insertElement stable ordered still (moves.acyclic acyclic shallow).1
        (moves.shallowAt shallow) present inserted⟩

/-- Inserting a node, or the elements of a list of the same family. -/
theorem insert (taut : Taut law lax (fun _ => lax) none tree list) (owned : tree.Owned)
    (acyclic : tree.Acyclic) (shallow : tree.ShallowAt target) {node : Handle}
    (present : ∀ child, node = some child → child < tree.size)
    (inserted : tree.insertBy behind (some target) position node = some after) :
    Taut law lax (fun id => lax ∨ after.Upward target id) none after list := by
  have wider : Taut law lax (fun id => lax ∨ tree.Upward target id) none tree list :=
    taut.mono fun _ => .inl
  obtain ⟨place, child, family, same, rfl, -, apart, rest⟩ := insert_cases inserted
  obtain rfl := Option.some.inj same
  rcases rest with ⟨alike, rfl⟩ | ⟨-, inserted⟩
  · exact wider.moveElements stable ordered owned acyclic shallow
      (not_upward_of_not_encloses shallow apart) (Option.isSome_of_eq_some alike) position
  · exact wider.insertElement stable ordered owned acyclic shallow (present child rfl) inserted

/-- A child has taken its place, and spans above it are widened. -/
theorem widened (taut : Taut law lax (fun _ => lax) (some child) tree list) (owned : tree.Owned)
    (acyclic : tree.Acyclic) (shallow : tree.ShallowAt child) :
    Taut law lax (fun _ => True) none (tree.widenAncestors (some child)) list :=
  ((taut.mono fun _ => .inl).widenAncestors stable ordered owned acyclic shallow).mono
    fun _ _ => trivial

/-- One child is replaced by another, or taken away. -/
theorem replaceChild (taut : Taut law lax (fun _ => lax) none tree list) (owned : tree.Owned)
    (acyclic : tree.Acyclic) (shallow : tree.Shallow) {old new : Handle}
    (present : ∀ child, new = some child → child < tree.size)
    (replaced : tree.replaceChild handle old new = some after) (still : after.Shallow) :
    Taut law lax (fun _ => True) none after list := by
  rcases owned.replaceChild_steps present replaced with
    ⟨-, rfl⟩ | ⟨parent, gone, rfl, rfl, held, ⟨rfl, rfl⟩ |
      ⟨child, node, placed, rfl, distinct, apart, found, place, whole, rfl⟩⟩
  · exact taut.mono fun _ _ => trivial
  · rw [← detach_eq_removeChild held]
    exact (taut.detach stable ordered owned.upTo (acyclic.not_self list) gone).mono
      fun _ _ => trivial
  have detached := owned.detach_moved child parent
  have circleless := owned.placed_acyclic acyclic (shallow parent) apart place whole
  have respanned := Respanned.refreshIfList placed parent node
  have left := taut.detach stable ordered owned.upTo (acyclic.not_self list) child
  have lawful : placed.SpansAre law := left.lawful.of_same place.span?
  have fitted : Taut law lax (fun _ => lax) none (placed.refreshIfList parent node) list := by
    refine refreshIfList stable ordered lawful whole.upTo (circleless.not_self list) ?_
      fun elsewhere => left.undisturbed (.placed place elsewhere (owned.detach_free child) ?_)
        lawful
    · rw [place.family?, detached.family?, family?_of_get? found]
    · rintro id same
      obtain rfl := Option.some.inj same
      rw [owned.detach_parentOf, if_neg distinct, held]
      exact fun same => elsewhere (Option.some.inj same)
  exact (fitted.loosen (some child)).widened stable ordered (whole.respanned respanned)
    (circleless.respanned respanned)
    ((still child).respanned (Respanned.widenAncestors _ _).symm)

/-- The element at a position is replaced by another, or taken away. -/
theorem setElement (taut : Taut law lax (fun _ => lax) none tree list) (owned : tree.Owned)
    (acyclic : tree.Acyclic) (shallow : tree.Shallow) {node : Handle}
    (present : ∀ child, node = some child → child < tree.size)
    (set : tree.setElement handle position node = some after) (still : after.Shallow) :
    Taut law lax (fun _ => True) none after list := by
  rcases setElement_cases set with rfl | ⟨old, -, replaced⟩
  · exact (taut.removeAt stable ordered owned (acyclic.not_self list) _ _).mono
      fun _ _ => trivial
  · exact taut.replaceChild stable ordered owned acyclic shallow present replaced still

/-- A slot is filled, or its child is replaced or taken away. -/
theorem setChild (taut : Taut law lax (fun _ => lax) none tree list) (owned : tree.Owned)
    (acyclic : tree.Acyclic) (shallow : tree.Shallow) {new : Handle}
    (present : ∀ child, new = some child → child < tree.size)
    (set : tree.setChild handle position new = some after) (still : after.Shallow) :
    Taut law lax (fun _ => True) none after list := by
  rcases owned.setChild_steps present set with rfl | rfl | ⟨old, -, replaced⟩ |
    ⟨parent, child, placed, -, rfl, fixed, apart, place, whole, rfl⟩
  · exact taut.mono fun _ _ => trivial
  · exact (taut.removeAt stable ordered owned (acyclic.not_self list) _ _).mono
      fun _ _ => trivial
  · exact taut.replaceChild stable ordered owned acyclic shallow present replaced still
  have detached := owned.detach_moved child parent
  have circleless := owned.placed_acyclic acyclic (shallow parent) apart place whole
  have left := taut.detach stable ordered owned.upTo (acyclic.not_self list) child
  have lawful : placed.SpansAre law := left.lawful.of_same place.span?
  have settled : Taut law lax (fun _ => lax) none placed list := by
    by_cases own : parent = list
    · exact of_fixed lawful (by rw [place.family?, detached.family?, ← own, fixed])
    · exact left.undisturbed (.placed place own (owned.detach_free child) nofun) lawful
  exact (settled.loosen (some child)).widened stable ordered whole circleless
    ((still child).respanned (Respanned.widenAncestors _ _).symm)

end Moving

theorem push (taut : Taut law lax spare none tree list) (owned : tree.Owned) {node : Node}
    (free : node.parent = none) (holds : law node.span) :
    Taut law lax spare none (tree.push node) list := by
  have old (id : NodeId) := parentOf_push free tree id
  have present {id : NodeId} (held : tree.parentOf (some id) = some list) :
      id < tree.size ∧ list < tree.size :=
    ⟨child_lt held, owned.parent_lt held⟩
  refine taut.undisturbed ⟨fun id => by rw [old], fun id held => ?_, fun _ id held => ?_⟩ ?_
  · rw [family?_push, family?_push, if_neg (Nat.ne_of_lt (present held).1),
      if_neg (Nat.ne_of_lt (present held).2)]
    exact ⟨rfl, rfl⟩
  · exact ⟨spanOf_push node (present held).2, spanOf_push node (present held).1⟩
  · exact taut.lawful.push holds

section Making

variable (stable : Span.Stable law) (ordered : ∀ {span}, law span → span.Ordered)

include stable ordered

theorem addList (taut : Taut law lax (fun _ => lax) none tree list) (owned : tree.Owned)
    (acyclic : tree.Acyclic) (family : ListFamily) {span : Span} (holds : law span)
    {elements : List Handle} (present : ∀ child, some child ∈ elements → child < tree.size) :
    Taut law lax (fun _ => lax) none (tree.addList family span elements).tree list := by
  refine owned.addList_induct (motive := fun tree => Taut law lax (fun _ => lax) none tree list)
    acyclic family present (taut.push owned rfl holds) ?_
  intro before after node still circleless shallow here taut appended free
  exact (taut.insert stable ordered still circleless shallow here appended).of_root free

/-- A node that is no list takes its children one after another. -/
theorem add (taut : Taut law lax (fun _ => lax) none tree list) (owned : tree.Owned)
    (acyclic : tree.Acyclic) {form : Form} (fixed : form.family? = none) {children : List Handle}
    (present : ∀ child, some child ∈ children → child < tree.size) {span : Span}
    (holds : law span) (admits : form.Admits children) :
    Taut law lax (fun _ => lax) none (tree.add form children span admits).tree list := by
  refine (owned.add_induct (motive := fun _ tree => Taut law lax (fun _ => lax) none tree list)
    fixed children span admits present (taut.push owned rfl holds) (fun _ _ _ kept _ => kept) ?_).2
  intro filled middle child building kept _ inside
  have circleless := building.acyclic acyclic
  obtain ⟨free, relinked, -, -, respanned⟩ := building.owned.detach_respanned child
  have size : (middle.detach (some child)).size = tree.size + 1 :=
    respanned.size.trans (relinked.size.trans building.size)
  have there : child < (middle.detach (some child)).size :=
    Nat.lt_of_lt_of_eq (Nat.lt_succ_of_lt inside) size.symm
  have place := adopt_placed there tree.size
  have left := kept.detach stable ordered building.owned (circleless.not_self list) child
  have lawful : (middle.adopt tree.size (some child)).SpansAre law :=
    left.lawful.of_same place.span?
  have room : tree.size < (middle.adopt tree.size (some child)).size := by
    rw [place.size, size]
    exact Nat.lt_succ_self _
  have within : child < (middle.adopt tree.size (some child)).size := by
    rwa [place.size]
  have union := stable.union (lawful.spanOf room) (lawful.spanOf within)
  rw [widenOver_eq room within]
  by_cases own : tree.size = list
  · refine of_fixed (lawful.setSpan union _) ?_
    rw [(Respanned.setSpan _ _ _).family?, place.family?, respanned.family?, relinked.family?,
      ← own, building.owned.fixed]
  · refine (left.undisturbed (.placed place own ?_ nofun) lawful).undisturbed
      (.setSpan room own (fun _ => ?_) _) (lawful.setSpan union _)
    · rw [respanned.parentOf, relinked.parentOf, if_pos rfl]
    · rw [place.parentOf, if_neg nofun, if_neg (Nat.ne_of_gt inside), respanned.parentOf,
        relinked.parentOf, if_neg (Nat.ne_of_gt inside), building.free]
      nofun

/-- Every constructor keeps the list around its elements. -/
theorem build (taut : Taut law lax (fun _ => lax) none tree list) (owned : tree.Owned)
    (acyclic : tree.Acyclic) (construction : Construction) {span : Span} (holds : law span)
    (present : ∀ child, some child ∈ construction.handles → child < tree.size) :
    Taut law lax (fun _ => lax) none (construction.build tree span).tree list :=
  owned.build_induct (motive := fun tree => Taut law lax (fun _ => lax) none tree list) stable
    acyclic (taut.addList stable ordered owned acyclic)
    (fun still circleless kept => kept.add stable ordered still circleless) construction holds
    present taut

theorem commaAround (taut : Taut law lax (fun _ => lax) none tree list) (owned : tree.Owned)
    (acyclic : tree.Acyclic) (present : id < tree.size) {span : Span} (holds : law span) :
    Taut law lax (fun _ => lax) none (tree.commaAround id span).tree list :=
  owned.commaAround_induct (motive := fun tree => Taut law lax (fun _ => lax) none tree list)
    stable acyclic (taut.addList stable ordered owned acyclic)
    (fun still circleless kept => kept.add stable ordered still circleless) taut present holds

/-- Joining two expressions by a comma. -/
theorem combineWithComma (taut : Taut law lax (fun _ => lax) none tree list) (owned : tree.Owned)
    (acyclic : tree.Acyclic) (shallow : tree.Shallow) {left right : Handle}
    (present : ∀ child, some child ∈ [left, right] → child < tree.size) :
    Taut law lax (fun _ => True) none (tree.combineWithComma left right).1 list := by
  rcases owned.combineWithComma_steps present with same | ⟨id, node, rfl, inside, found, rest⟩
  · rw [same]
    exact taut.mono fun _ _ => trivial
  have holds : law node.span := taut.lawful (some id) _ (by rw [span?, found]; rfl)
  have sequence := taut.commaAround stable ordered owned acyclic inside holds
  obtain ⟨still, -, circleless, -⟩ := owned.commaAround inside node.span
  have circleless := circleless acyclic
  dsimp only at rest
  generalize (tree.commaAround id node.span).tree = middle at rest sequence still circleless
  rcases rest with same | ⟨target, child, position, joined, depth, there, inserted, rest⟩
  · rw [same]
    exact sequence.mono fun _ _ => trivial
  have depth := depth shallow
  have here : ∀ other, some child = some other → other < middle.size :=
    fun other same => Option.some.inj same ▸ there
  have kept := sequence.insert stable ordered still circleless depth here inserted
  rcases rest with same | ⟨previous, other, linked, -, -, same⟩
  · rw [same]
    exact kept.mono fun _ _ => trivial
  have joins := still.insert here inserted
  rw [same, ← detach_eq_removeChild linked]
  exact (kept.detach stable ordered (joins.owned still).1.upTo
    ((joins.acyclic circleless depth).1.not_self list) other).mono fun _ _ => trivial

end Making

theorem respanned (taut : Taut law lax spare loose before list)
    (respanned : Respanned before after)
    (same : ∀ place, after.span? place = before.span? place) :
    Taut law lax spare loose after list :=
  taut.undisturbed (.of_respanned respanned fun _ _ _ =>
    ⟨spanOf_congr (same _), spanOf_congr (same _)⟩) (taut.lawful.of_same same)

/-- A change that may be refused. -/
theorem getD (taut : Taut law lax (fun _ => lax) none tree list) {changed : Option Tree}
    (kept : ∀ after, changed = some after → Taut law lax (fun _ => True) none after list) :
    Taut law lax (fun _ => True) none (changed.getD tree) list := by
  cases changed with
  | none => exact taut.mono fun _ _ => trivial
  | some after => exact kept after rfl

end Taut

end Tree

namespace Operation

variable {tree : Tree} {law : Span → Prop} {lax : Prop} {list : NodeId}

/-- Every call keeps the list around its elements, if none of these is spare. -/
theorem apply_taut (operation : Operation) (stable : Span.Stable law)
    (ordered : ∀ {span}, law span → span.Ordered)
    (taut : Tree.Taut law lax (fun _ => lax) none tree list) (owned : tree.Owned)
    (acyclic : tree.Acyclic) (admissible : operation.Admissible tree)
    (regular : operation.Regular tree) (holds : ∀ span ∈ operation.span?, law span) :
    Tree.Taut law lax (fun _ => True) none (operation.apply tree) list := by
  have shallow := regular.before
  have still := regular.after
  cases operation with
  | make construction span =>
    exact (taut.build stable ordered owned acyclic construction (holds span rfl)
      admissible.lt).mono fun _ _ => trivial
  | append target node | insert target position node =>
    refine taut.getD fun after changed => ?_
    obtain ⟨place, -, -, rfl, -⟩ := Tree.insert_cases changed
    exact (taut.insert stable ordered owned acyclic (shallow place)
      (fun child same => admissible.lt child (by simp [handles, same])) changed).mono
        fun _ _ => trivial
  | setElement target position node =>
    refine taut.getD fun after changed => ?_
    rw [apply, changed] at still
    exact taut.setElement stable ordered owned acyclic shallow
      (fun child same => admissible.lt child (by simp [handles, same])) changed still
  | removeAt target position =>
    exact (taut.removeAt stable ordered owned (acyclic.not_self list) _ _).mono
      fun _ _ => trivial
  | replaceChild parent old new =>
    refine taut.getD fun after changed => ?_
    rw [apply, changed] at still
    exact taut.replaceChild stable ordered owned acyclic shallow
      (fun child same => admissible.lt child (by simp [handles, same])) changed still
  | setChild parent position new =>
    refine taut.getD fun after changed => ?_
    rw [apply, changed] at still
    exact taut.setChild stable ordered owned acyclic shallow
      (fun child same => admissible.lt child (by simp [handles, same])) changed still
  | combineWithComma left right =>
    exact taut.combineWithComma stable ordered owned acyclic shallow admissible.lt
  | setScope node scope =>
    refine taut.getD fun after changed => ?_
    exact (taut.respanned (Tree.setScope_respanned changed)
      (Tree.setScope_span? changed)).mono fun _ _ => trivial
  | bindLookup node scopes =>
    refine taut.getD fun after changed => ?_
    obtain ⟨bound, binds, rfl⟩ := Option.map_eq_some_iff.mp changed
    exact (taut.respanned (Tree.bindLookup_respanned binds)
      (Tree.bindLookup_span? binds)).mono fun _ _ => trivial

end Operation

namespace Tree

variable {tree : Tree} {law : Span → Prop} {lax : Prop} {spare : NodeId → Prop}
  {allowed : Tree → Operation → Prop} {list id : NodeId}

/-- The list begins where the first of the elements that count begins, and ends where the last
of them ends. -/
def Exact (tree : Tree) (list : NodeId) : Prop :=
  IsLeast ((fun id => (tree.spanOf id).start) '' {id | tree.Counts list id})
      (tree.spanOf list).start ∧
    IsGreatest ((fun id => (tree.spanOf id).stop) '' {id | tree.Counts list id})
      (tree.spanOf list).stop

/-- The list begins and ends where elements do that count, and covers those of some width. -/
structure Framed (tree : Tree) (list : NodeId) : Prop where
  first : ∃ id, tree.Counts list id ∧ (tree.spanOf id).start = (tree.spanOf list).start
  last : ∃ id, tree.Counts list id ∧ (tree.spanOf id).stop = (tree.spanOf list).stop
  wide : ∀ id, tree.Counts list id → ¬ (tree.spanOf id).isEmpty →
    (tree.spanOf list).Covers (tree.spanOf id)

/-- The list is exact, unless it is none, or has a list among its elements, or none that
counts. -/
def Tight (tree : Tree) (list : NodeId) : Prop :=
  (tree.family? (some list)).isSome → tree.Flat list → (∃ id, tree.Counts list id) →
    tree.Exact list

/-- A framed list is exact when it covers the elements of no width as well. -/
theorem Framed.exact_iff (framed : tree.Framed list) :
    tree.Exact list ↔ ∀ id, tree.Counts list id → (tree.spanOf id).isEmpty →
      (tree.spanOf list).Covers (tree.spanOf id) := by
  constructor
  · rintro ⟨⟨-, least⟩, -, greatest⟩ id counts -
    exact ⟨least ⟨id, counts, rfl⟩, greatest ⟨id, counts, rfl⟩⟩
  · intro narrow
    have covers (id : NodeId) (counts : tree.Counts list id) :
        (tree.spanOf list).Covers (tree.spanOf id) :=
      if empty : (tree.spanOf id).isEmpty then narrow id counts empty
      else framed.wide id counts empty
    refine ⟨⟨framed.first, ?_⟩, framed.last, ?_⟩
    · rintro _ ⟨id, counts, rfl⟩
      exact (covers id counts).1
    · rintro _ ⟨id, counts, rfl⟩
      exact (covers id counts).2

namespace Hugs

/-- A list that stands for no text covers the elements that count all the same. -/
theorem covered (hugs : Hugs lax spare none tree list) (counts : tree.Counts list id)
    (seen : ¬ (lax ∧ (tree.spanOf id).isEmpty)) :
    (tree.spanOf list).Covers (tree.spanOf id) := by
  by_cases blank : (tree.spanOf list).isPlaceholder
  · obtain ⟨-, start, stop⟩ := hugs.blank blank id counts nofun
    exact ⟨Nat.le_of_eq start.symm, Nat.le_of_eq stop⟩
  · exact hugs.covers blank id counts nofun seen

theorem framed (hugs : Hugs lax spare none tree list) (counts : tree.Counts list id) :
    tree.Framed list := by
  refine ⟨?_, ?_, fun other also wide => hugs.covered also fun none => wide none.2⟩
  · by_cases blank : (tree.spanOf list).isPlaceholder
    · exact ⟨id, counts, (hugs.blank blank id counts nofun).2.1⟩
    · obtain ⟨first, also, begins⟩ := hugs.start blank
      exact ⟨first, also, begins.resolve_right fun none => nomatch none.1⟩
  · by_cases blank : (tree.spanOf list).isPlaceholder
    · exact ⟨id, counts, (hugs.blank blank id counts nofun).2.2⟩
    · obtain ⟨last, also, ends⟩ := hugs.stop blank
      exact ⟨last, also, ends.resolve_right fun none => nomatch none.1⟩

end Hugs

namespace Taut

theorem tight (taut : Taut law False spare none tree list) : tree.Tight list := by
  rintro isList flat ⟨id, counts⟩
  have hugs := taut.hugs isList flat ⟨id, counts.held⟩
  exact (hugs.framed counts).exact_iff.mpr fun other also _ => hugs.covered also And.left

/-- A tight list can be viewed strictly. -/
theorem of_tight (taut : Taut law lax spare none tree list) (tight : tree.Tight list) :
    Taut law False spare none tree list where
  lawful := taut.lawful
  hugs isList flat some :=
    have hugs := taut.hugs isList flat some
    { hugs with
      covers _ id counts _ _ :=
        have exact := tight isList flat ⟨id, counts⟩
        ⟨exact.1.2 ⟨id, counts, rfl⟩, exact.2.2 ⟨id, counts, rfl⟩⟩ }

/-- A list that is not hollow has no spare elements. -/
theorem of_clear (taut : Taut law lax spare none tree list) (owned : tree.Owned)
    (clear : tree.Flat list → ¬ tree.Hollow list) : Taut law lax (fun _ => lax) none tree list where
  lawful := taut.lawful
  hugs isList flat some :=
    have hugs := taut.hugs isList flat some
    { hugs with
      blank blank id counts _ := by
        refine absurd ⟨blank, id, owned.mem_children_iff.mpr counts.held, ?_⟩ (clear flat)
        exact counts.solid }

/-- Where all spans have source, or none has, a list that stands for no text has no elements
that do. -/
theorem of_uniform {sourced : Bool}
    (taut : Taut (fun span => span.Ordered ∧ span.lines.isSome = sourced) lax spare none tree list)
    (owned : tree.Owned) :
    Taut (fun span => span.Ordered ∧ span.lines.isSome = sourced) lax (fun _ => lax) none
      tree list where
  lawful := taut.lawful
  hugs isList flat some :=
    have hugs := taut.hugs isList flat some
    { hugs with
      blank blank id counts _ := by
        obtain ⟨-, start, stop⟩ := hugs.blank blank id counts nofun
        have own := (taut.lawful.spanOf (owned.parent_lt counts.held)).2
        have theirs := (taut.lawful.spanOf (child_lt counts.held)).2
        rw [Span.isPlaceholder_iff] at blank
        rw [blank.2] at own
        rw [← own] at theirs
        refine absurd (Span.isPlaceholder_iff.mpr ⟨?_, by simpa using theirs⟩) counts.solid
        rw [start, stop, blank.1] }

end Taut

/-- Calls keep a list around its elements as long as none is made where elements are spare. -/
theorem Reached.taut (reached : Reached allowed tree) (stable : Span.Stable law)
    (ordered : ∀ {span}, law span → span.Ordered)
    (careful : ∀ tree operation, allowed tree operation → operation.Regular tree ∧
      (∀ span ∈ operation.span?, law span) ∧
      (tree.Owned → Taut law lax (fun _ => True) none tree list →
        Taut law lax (fun _ => lax) none tree list)) :
    Taut law lax (fun _ => True) none tree list := by
  induction reached with
  | empty =>
    refine .of_fixed (fun handle span found => ?_) (by simp [Tree.family?, get?])
    cases handle <;> simp [Tree.span?, get?] at found
  | @step tree operation reached admissible allows ih =>
    obtain ⟨regular, holds, clear⟩ := careful tree operation allows
    have acyclic := reached.acyclic fun tree operation allows =>
      (careful tree operation allows).1.before
    exact operation.apply_taut stable ordered (clear reached.owned ih) reached.owned acyclic
      admissible regular holds

/-- A list without lists among its elements begins and ends where elements do that stand for
text, and covers those of some width; it is exact when it covers the others too. A call on a
tree in which the list is not hollow leaves it exact. So the list is exact if it was never
hollow when a call was made, and it never is if all spans that are supplied have source, or none
has. -/
theorem Reached.tightness (reached : Reached allowed tree)
    (regular : ∀ tree operation, allowed tree operation → Operation.Regular operation tree)
    (list : NodeId) :
    ((tree.family? (some list)).isSome → tree.Flat list → (∃ id, tree.Counts list id) →
      tree.Framed list ∧
        (tree.Exact list ↔ ∀ id, tree.Counts list id → (tree.spanOf id).isEmpty →
          (tree.spanOf list).Covers (tree.spanOf id))) ∧
    (∀ operation : Operation, operation.Admissible tree → operation.Regular tree →
      tree.Tight list → (tree.Flat list → ¬ tree.Hollow list) →
        (operation.apply tree).Tight list) ∧
    ((∀ tree operation, allowed tree operation → tree.Flat list → ¬ tree.Hollow list) →
      tree.Tight list) ∧
    ∀ sourced, (∀ tree operation, allowed tree operation →
      ∀ span ∈ Operation.span? operation, span.lines.isSome = sourced) → tree.Tight list := by
  have view : Taut Span.Ordered True (fun _ => True) none tree list :=
    reached.taut Span.stable_ordered id fun tree operation allows =>
      ⟨regular tree operation allows, (regular tree operation allows).ordered, fun _ taut => taut⟩
  refine ⟨?_, ?_, fun clear => ?_, fun sourced uniform => ?_⟩
  · rintro isList flat ⟨id, counts⟩
    have framed := (view.hugs isList flat ⟨id, counts.held⟩).framed counts
    exact ⟨framed, framed.exact_iff⟩
  · intro operation admissible still tight clear
    have acyclic := reached.acyclic fun tree operation allows =>
      (regular tree operation allows).before
    exact (operation.apply_taut Span.stable_ordered id
      ((view.of_tight tight).of_clear reached.owned clear) reached.owned acyclic admissible still
      still.ordered).tight
  · have strict : Taut Span.Ordered False (fun _ => True) none tree list :=
      reached.taut Span.stable_ordered id fun tree operation allows =>
        ⟨regular tree operation allows, (regular tree operation allows).ordered,
          fun owned taut => taut.of_clear owned (clear tree operation allows)⟩
    exact strict.tight
  · have strict : Taut (fun span => span.Ordered ∧ span.lines.isSome = sourced) False
        (fun _ => True) none tree list :=
      reached.taut (Span.stable_lines sourced) And.left fun tree operation allows =>
        ⟨regular tree operation allows,
          fun span given => ⟨(regular tree operation allows).ordered span given,
            uniform tree operation allows span given⟩, fun owned taut => taut.of_uniform owned⟩
    exact strict.tight

theorem flat_of_lt (flat : ∀ id < tree.size, tree.parentOf (some id) = some list →
    tree.family? (some id) = none) : tree.Flat list :=
  fun id held => flat id (child_lt held) held

/-- The operand of a listed negation is wider than the list was. -/
theorem tightness_of_wide_operand :
    let allowed : Tree → Operation → Prop := fun tree operation =>
      operation.Regular tree ∧ ∀ span ∈ operation.span?, span.lines.isSome = false
    let name := (Operation.make (.lookup "a") (.detached 4 5 .none)).apply {}
    let negation := (Operation.make (.unary (.punctuator .minus) none false)
      (.detached 6 7 .none)).apply name
    let both := (Operation.make (.list .expressions [some 0, some 1]) .empty).apply negation
    let operand := (Operation.make (.lookup "b") (.detached 7 9 .none)).apply both
    let negated := (Operation.setChild (some 1) 0 (some 3)).apply operand
    Reached allowed negated ∧ (both.spanOf 2).stop = 7 ∧ (negated.spanOf 2).stop = 9 ∧
      negated.Exact 2 := by
  intro allowed name negation both operand negated
  have step {tree : Tree} {operation : Operation} (reached : Reached allowed tree)
      (admissible : operation.Admissible tree)
      (given : ∀ span ∈ operation.span?, span.Ordered ∧ span.lines.isSome = false)
      (small : (operation.apply tree).size ≤ ancestorLimit) :
      Reached allowed (operation.apply tree) :=
    .step reached admissible ⟨Operation.regular_of_size reached admissible
      (fun span own => (given span own).1) small, fun span own => (given span own).2⟩
  have first : Reached allowed name := step .empty (by decide) (by decide) (by decide)
  have second : Reached allowed negation := step first (by decide) (by decide) (by decide)
  have third : Reached allowed both := step second (by decide) (by decide) (by decide)
  have fourth : Reached allowed operand := step third (by decide) (by decide) (by decide)
  have last : Reached allowed negated := step fourth (by decide) (by decide) (by decide)
  obtain ⟨-, -, -, uniform⟩ := last.tightness (fun _ _ => And.left) 2
  exact ⟨last, by decide, by decide, uniform false (fun _ _ => And.right) (by decide)
    (flat_of_lt (by decide)) ⟨0, by decide, by decide⟩⟩

/-- Not all lists are tight. An element without a span of its own takes that of an operand of no
width, and the list has it in the same place already, but without source. Another element then
gives its span to the list. -/
theorem not_tight_of_hollow_list :
    ¬ ∀ tree list, Reached (fun tree operation => operation.Regular tree) tree →
      tree.Tight list := by
  intro all
  let table := LineTable.ofText "abc   zz".toList ⟨0, 1, 1⟩
  let name := (Operation.make (.lookup "a") (.detached 3 3 .none)).apply {}
  let negation := (Operation.make (.unary (.punctuator .minus) none false) .empty).apply name
  let both := (Operation.make (.list .expressions [some 0, some 1]) .empty).apply negation
  let operand := (Operation.make (.lookup "x") ⟨3, 3, .none, some table⟩).apply both
  let negated := (Operation.setChild (some 1) 0 (some 3)).apply operand
  let further := (Operation.make (.lookup "zz") ⟨6, 8, .none, some table⟩).apply negated
  let extended := (Operation.append (some 2) (some 4)).apply further
  have none : Reached (fun tree operation => operation.Regular tree) {} := .empty
  have first : Reached (fun tree operation => operation.Regular tree) name :=
    none.step_regular (by decide) (by decide) (by decide)
  have second : Reached (fun tree operation => operation.Regular tree) negation :=
    first.step_regular (by decide) (by decide) (by decide)
  have third : Reached (fun tree operation => operation.Regular tree) both :=
    second.step_regular (by decide) (by decide) (by decide)
  have fourth : Reached (fun tree operation => operation.Regular tree) operand :=
    third.step_regular (by decide) (by decide) (by decide)
  have fifth : Reached (fun tree operation => operation.Regular tree) negated :=
    fourth.step_regular (by decide) (by decide) (by decide)
  have sixth : Reached (fun tree operation => operation.Regular tree) further :=
    fifth.step_regular (by decide) (by decide) (by decide)
  have last : Reached (fun tree operation => operation.Regular tree) extended :=
    sixth.step_regular (by decide) (by decide) (by decide)
  have left : extended.Counts 2 1 := ⟨by decide, by decide⟩
  obtain ⟨⟨-, least⟩, -⟩ := all extended 2 last (by decide) (flat_of_lt (by decide)) ⟨1, left⟩
  have early : (extended.spanOf 2).start ≤ (extended.spanOf 1).start := least ⟨1, left, rfl⟩
  exact absurd early (by decide)

end Tree

end ScriptSyntax
