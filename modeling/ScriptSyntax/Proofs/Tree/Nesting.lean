import ScriptSyntax.Proofs.Tree.Coverage
import ScriptSyntax.Proofs.Tree.Joining

/-! Lists in lists. A list that is put between the elements of one of its own family gives up its
elements to it. To replace an element is another matter: what takes its place is not looked
into, so this is the one way for a list to come into a list of its family. -/
namespace ScriptSyntax

namespace Tree

variable {tree before after : Tree} {behind : Nat → Nat} {list child parent source : NodeId}
  {handle node old new : Handle} {position : Nat}

/-- Both are lists, of one family. -/
def Akin (tree : Tree) (first second : Handle) : Prop :=
  (tree.family? first).isSome ∧ tree.family? second = tree.family? first

instance (tree : Tree) (first second : Handle) : Decidable (tree.Akin first second) :=
  inferInstanceAs (Decidable (_ ∧ _))

/-- No list has a list of its own family among its elements. -/
def Unnested (tree : Tree) : Prop :=
  ∀ list child, some child ∈ tree.slots (some list) → ¬ tree.Akin (some list) (some child)

theorem Akin.congr {first second : Handle} (akin : after.Akin first second)
    (family : ∀ handle, after.family? handle = before.family? handle) :
    before.Akin first second := by
  unfold Akin
  rw [← family, ← family]
  exact akin

/-- Where slots and parents agree, it can be told from the parents. -/
theorem Owned.unnested_iff (owned : tree.Owned) :
    tree.Unnested ↔ ∀ list child, tree.parentOf (some child) = some list →
      ¬ tree.Akin (some list) (some child) :=
  forall_congr' fun _ => forall_congr' fun _ => imp_congr_left owned.mem_slots_iff

/-- Old links are between nodes of their old families; any other may not be between akin ones. -/
theorem Owned.unnested_of_link (owned : before.Owned) (unnested : before.Unnested)
    (still : after.Owned)
    (family : ∀ id < before.size, after.family? (some id) = before.family? (some id))
    (link : ∀ list child, after.parentOf (some child) = some list →
      before.parentOf (some child) = some list ∨ ¬ after.Akin (some list) (some child)) :
    after.Unnested := by
  rw [still.unnested_iff]
  intro list child linked
  rcases link list child linked with kept | apart
  · unfold Akin
    rw [family list (owned.upTo.parent_lt kept), family child (child_lt kept)]
    exact owned.unnested_iff.mp unnested list child kept
  · exact apart

/-- A child that is moved may not be akin to its new parent. -/
theorem Moved.unnested (moved : Moved before after parent handle) (owned : before.Owned)
    (unnested : before.Unnested) (apart : ¬ before.Akin (some parent) handle) : after.Unnested := by
  refine owned.unnested_of_link unnested moved.owned (fun id _ => moved.family? _) ?_
  intro list child linked
  rcases moved.link child list linked with kept | ⟨rfl, rfl⟩
  · exact .inl kept
  · exact .inr fun akin => apart (akin.congr moved.family?)

theorem not_akin_none (tree : Tree) (parent : NodeId) : ¬ tree.Akin (some parent) none := by
  rintro ⟨isList, same⟩
  rw [← same] at isList
  cases isList

theorem Unnested.respanned (unnested : before.Unnested) (respanned : Respanned before after) :
    after.Unnested := by
  intro list child member akin
  rw [respanned.slots] at member
  exact unnested list child member (akin.congr respanned.family?)

theorem Owned.removeAt_unnested (owned : tree.Owned) (unnested : tree.Unnested) (handle : Handle)
    (position : Nat) : (tree.removeAt handle position).1.Unnested :=
  (owned.removeAt handle position 0).unnested owned unnested (not_akin_none tree 0)

/-- One child in the place of another. -/
theorem Owned.replaceChild_unnested (owned : tree.Owned)
    (present : ∀ child, new = some child → child < tree.size) (unnested : tree.Unnested)
    (apart : ¬ tree.Akin handle new) (replaced : tree.replaceChild handle old new = some after) :
    after.Unnested := by
  rcases owned.replaceChild_steps present replaced with ⟨-, rfl⟩ | ⟨parent, gone, rfl, -, held, rest⟩
  · exact unnested
  rcases rest with ⟨-, rfl⟩ | ⟨child, node, placed, rfl, -, -, -, place, still, rfl⟩
  · exact (owned.removeChild held parent).unnested owned unnested (not_akin_none tree parent)
  · have moved := (owned.detach_moved child parent).placed place still
    exact (moved.unnested owned unnested apart).respanned
      (.trans (.refreshIfList _ parent node) (.widenAncestors _ _))

theorem Owned.insertElement_unnested (owned : tree.Owned) (present : child < tree.size)
    (unnested : tree.Unnested) (apart : ¬ tree.Akin (some list) (some child))
    (inserted : tree.insertElement list position (some child) = some after) : after.Unnested := by
  obtain ⟨-, -, placed, fitted, place, still, rfl, fit⟩ :=
    owned.insertElement_steps present inserted
  have moved := (owned.detach_moved child list).placed place still
  have respanned : Respanned placed fitted := fit ▸ .fitList placed _ _ _
  exact (moved.unnested owned unnested apart).respanned (respanned.trans (.widenAncestors _ _))

/-- The elements that a list gives up to one of its family are not of that family. -/
theorem Owned.moveElements_unnested (owned : tree.Owned) (unnested : tree.Unnested)
    (distinct : source ≠ list) (akin : tree.Akin (some list) (some source)) :
    (tree.moveElements behind list source (tree.slots (some source)).length position).Unnested := by
  have isList : (tree.family? (some source)).isSome := akin.2 ▸ akin.1
  let motive (middle : Tree) :=
    middle.Owned ∧ middle.Unnested ∧ ∀ id, middle.family? id = tree.family? id
  have begins : motive tree := ⟨owned, unnested, fun _ => rfl⟩
  refine (owned.moveElements_induct (motive := motive) distinct isList rfl begins ?_ ?_).2.1
  · rintro middle - ⟨still, apart, family⟩
    have removed := still.removeAt (some source) 0 list
    exact ⟨removed.owned, still.removeAt_unnested apart _ _,
      fun id => (removed.family? id).trans (family id)⟩
  · rintro before middle after child place ⟨former, unnestedBefore, familyBefore⟩ held -
      ⟨still, apart, family⟩ inside - inserted
    obtain ⟨owned, -, kept⟩ := (still.insertElement inside inserted).owned still
    refine ⟨owned, still.insertElement_unnested inside apart (fun kin => ?_) inserted,
      fun id => (kept id).trans (family id)⟩
    -- the child was an element of the source, which is of the family of the list
    have among : tree.Akin (some source) (some child) :=
      ⟨isList, (kin.congr family).2.trans akin.2.symm⟩
    exact former.unnested_iff.mp unnestedBefore source child held
      (among.congr fun id => (familyBefore id).symm)

/-- A list of the same family gives up its elements, so an insertion does not nest it. -/
theorem Owned.insert_unnested (owned : tree.Owned)
    (present : ∀ child, node = some child → child < tree.size) (unnested : tree.Unnested)
    (inserted : tree.insertBy behind handle position node = some after) : after.Unnested := by
  obtain ⟨list, child, family, rfl, rfl, isList, apart, rest⟩ := insert_cases inserted
  rcases rest with ⟨alike, rfl⟩ | ⟨other, inserted⟩
  · exact owned.moveElements_unnested unnested (not_encloses_self_ne apart)
      ⟨Option.isSome_of_eq_some isList, alike.trans isList.symm⟩
  · exact owned.insertElement_unnested (present child rfl) unnested
      (fun akin => other (akin.2.trans isList)) inserted

theorem Owned.appendAll_unnested (owned : tree.Owned) {nodes : List Handle}
    (present : ∀ child, some child ∈ nodes → child < tree.size) (unnested : tree.Unnested) :
    (tree.appendAll (some list) nodes).Unnested := by
  induction nodes generalizing tree with
  | nil => exact unnested
  | cons node rest ih =>
    have here : ∀ child, node = some child → child < tree.size :=
      fun child same => present child (by simp [same])
    have others : ∀ child, some child ∈ rest → child < tree.size :=
      fun child member => present child (List.mem_cons_of_mem _ member)
    unfold Tree.appendAll
    rw [List.foldl_cons]
    cases appended : tree.append (some list) node with
    | none => exact ih owned others unnested
    | some next =>
      obtain ⟨still, size, -⟩ := (owned.insert here appended).owned owned
      exact ih still (fun child member => Nat.lt_of_lt_of_eq (others child member) size.symm)
        (owned.insert_unnested here unnested appended)

theorem Owned.addList_unnested (owned : tree.Owned) (unnested : tree.Unnested)
    (family : ListFamily) (span : Span) {elements : List Handle}
    (present : ∀ child, some child ∈ elements → child < tree.size) :
    (tree.addList family span elements).tree.Unnested := by
  have pushed : (tree.push (.emptyList family span)).Owned :=
    owned.push_empty rfl rfl
  refine pushed.appendAll_unnested (fun child member => ?_)
    (owned.unnested_of_link unnested pushed (fun id inside => ?_) fun list child linked => .inl ?_)
  · rw [size_push]
    exact Nat.lt_succ_of_lt (present child member)
  · rw [family?_push, if_neg (Nat.ne_of_lt inside)]
  · rwa [parentOf_push rfl] at linked

/-- A node that is no list has nobody in a list. -/
theorem Owned.add_unnested (owned : tree.Owned) (unnested : tree.Unnested) {form : Form}
    (fixed : form.family? = none) {children : List Handle} (span : Span)
    (admits : form.Admits children)
    (present : ∀ child, some child ∈ children → child < tree.size) :
    (tree.add form children span admits).tree.Unnested := by
  obtain ⟨building, forms⟩ := owned.add_induct
    (motive := fun _ middle =>
      KeepsForms (tree.push { form, slots := children, span, admits }) middle)
    fixed children span admits present (.refl _) (fun _ _ _ forms _ => forms)
    (fun _ _ _ _ forms _ _ => forms.trans ((KeepsForms.detach ..).trans
      ((KeepsForms.modify _ _ (by exact fun _ => rfl)).trans (.widenOver ..))))
  refine owned.unnested_of_link unnested building.complete (fun id inside => ?_)
    fun list child linked => (building.link child list linked).imp_right ?_
  · rw [forms.family?, family?_push, if_neg (Nat.ne_of_lt inside)]
  · rintro rfl ⟨isList, -⟩
    rw [building.owned.fixed] at isList
    cases isList

theorem Owned.addWithList_unnested (owned : tree.Owned) (unnested : tree.Unnested) {form : Form}
    (fixed : form.family? = none) (family : ListFamily) (span : Span)
    {first elements last : List Handle} (admits : ∀ list, form.Admits (first ++ list :: last))
    (presentAround : ∀ child, some child ∈ first ++ last → child < tree.size)
    (present : ∀ child, some child ∈ elements → child < tree.size) :
    (tree.addWithList form family span first elements last admits).tree.Unnested := by
  obtain ⟨still, size, -⟩ := owned.addList_sound family span.atStart present
  refine still.add_unnested (owned.addList_unnested unnested family _ present) fixed span _ ?_
  intro child member
  rw [size]
  exact lt_of_mem_around (presentAround child) member

theorem Owned.build_unnested (owned : tree.Owned) (unnested : tree.Unnested)
    (construction : Construction) (span : Span)
    (present : ∀ child, some child ∈ construction.handles → child < tree.size) :
    (construction.build tree span).tree.Unnested := by
  rcases construction.build_cases tree span with ⟨form, children, admits, fixed, named, same⟩ |
    ⟨form, family, first, elements, last, admits, fixed, around, inside, same⟩ |
    ⟨family, elements, named, same⟩
  · rw [same]
    exact owned.add_unnested unnested fixed span admits
      fun child member => present child (named member)
  · rw [same]
    exact owned.addWithList_unnested unnested fixed family span admits
      (fun child member => present child (around member))
      (fun child member => present child (inside member))
  · rw [same]
    exact owned.addList_unnested unnested family span
      fun child member => present child (named member)

theorem Owned.commaAround_unnested {id : NodeId} (owned : tree.Owned) (unnested : tree.Unnested)
    (present : id < tree.size) (span : Span) : (tree.commaAround id span).tree.Unnested := by
  unfold Tree.commaAround
  split
  · exact unnested
  · exact owned.addWithList_unnested unnested rfl .expressions _ (fun _ _ => rfl) (by simp)
      (by simpa using present)

theorem Owned.combineWithComma_unnested (owned : tree.Owned) (unnested : tree.Unnested)
    {left right : Handle} (present : ∀ child, some child ∈ [left, right] → child < tree.size) :
    (tree.combineWithComma left right).1.Unnested := by
  rcases owned.combineWithComma_steps present with same | ⟨id, node, rfl, inside, -, rest⟩
  · rw [same]
    exact unnested
  obtain ⟨still, -⟩ := owned.commaAround inside node.span
  have around := owned.commaAround_unnested unnested inside node.span
  rcases rest with same | ⟨target, child, position, joined, -, there, inserted, rest⟩
  · rw [same]
    exact around
  have given : ∀ other, some child = some other → other < (tree.commaAround id node.span).tree.size :=
    fun other same => Option.some.inj same ▸ there
  have joins := still.insert_unnested given around inserted
  obtain ⟨joinedOwned, -⟩ := (still.insert given inserted).owned still
  rcases rest with same | ⟨previous, other, linked, -, -, same⟩
  · rw [same]
    exact joins
  · rw [same]
    exact (joinedOwned.removeChild linked previous).unnested joinedOwned joins
      (not_akin_none joined previous)

/-- To set an element is to replace it, or to take it out. -/
theorem Owned.setElement_unnested (owned : tree.Owned)
    (present : ∀ child, new = some child → child < tree.size) (unnested : tree.Unnested)
    (apart : ¬ tree.Akin handle new) (set : tree.setElement handle position new = some after) :
    after.Unnested := by
  rcases setElement_cases set with rfl | ⟨old, -, replaced⟩
  · exact owned.removeAt_unnested unnested handle position
  · exact owned.replaceChild_unnested present unnested apart replaced

theorem Owned.setChild_unnested (owned : tree.Owned)
    (present : ∀ child, new = some child → child < tree.size) (unnested : tree.Unnested)
    (apart : ¬ tree.Akin handle new) (set : tree.setChild handle position new = some after) :
    after.Unnested := by
  rcases owned.setChild_steps present set with rfl | rfl | ⟨old, -, replaced⟩ |
    ⟨parent, child, placed, rfl, rfl, -, -, place, still, rfl⟩
  · exact unnested
  · exact owned.removeAt_unnested unnested handle position
  · exact owned.replaceChild_unnested present unnested apart replaced
  · have moved := (owned.detach_moved child parent).placed place still
    exact (moved.unnested owned unnested apart).respanned (.widenAncestors _ _)

/-- What is put in the place of an element becomes an element, whatever it is. -/
theorem Owned.not_unnested_of_replaced (owned : tree.Owned)
    (present : ∀ child, new = some child → child < tree.size) (unnested : tree.Unnested)
    (akin : tree.Akin handle new) (replaced : tree.replaceChild handle old new = some after) :
    ¬ after.Unnested := by
  obtain ⟨parent, gone, rfl, rfl, member, -⟩ := replaceChild_cases replaced
  cases new with
  | none => exact absurd akin (not_akin_none tree parent)
  | some child =>
    have inside := present child rfl
    have distinct : some gone ≠ some child := fun same => unnested parent gone member (same ▸ akin)
    have moves := owned.replaceChild present replaced
    obtain ⟨still, -, family⟩ := moves.owned owned
    have linked : after.parentOf (some child) = some parent := by
      rw [(owned.replaceChild_parentOf inside distinct replaced).2, if_neg distinct, if_pos rfl]
    exact fun apart => still.unnested_iff.mp apart parent child linked
      (akin.congr fun id => (family id).symm)

theorem setElement_some (set : tree.setElement handle position (some child) = some after) :
    ∃ old, tree.replaceChild handle old (some child) = some after := by
  simp only [setElement, bind, Option.bind_eq_some_iff, Option.isNone_some, Bool.false_eq_true,
    if_false] at set
  obtain ⟨old, -, replaced⟩ := set
  exact ⟨_, replaced⟩

theorem setChild_of_isList (isList : (tree.family? handle).isSome) :
    tree.setChild handle position new = tree.setElement handle position new := by
  obtain ⟨node, found, listed⟩ := tree.isList_of_family? isList
  simp only [setChild, found, bind, Option.bind_some, if_pos listed]

end Tree

namespace Operation

variable {tree : Tree} {operation : Operation}

/-- The holder of the child that a call is to exchange, and what comes in its place; nothing
for the calls that exchange none. -/
def exchange : Operation → Handle × Handle
  | setElement holder _ new | replaceChild holder _ new | setChild holder _ new => (holder, new)
  | _ => (none, none)

/-- The call puts a list in the place of an element of a list of its family, and is carried
out. -/
def Nests (operation : Operation) (tree : Tree) : Prop :=
  tree.Akin operation.exchange.1 operation.exchange.2 ∧ (operation.attempt tree).isSome

instance (operation : Operation) (tree : Tree) : Decidable (operation.Nests tree) :=
  inferInstanceAs (Decidable (_ ∧ _))

theorem Admissible.exchange_lt (admissible : operation.Admissible tree) (child : NodeId)
    (same : operation.exchange.2 = some child) : child < tree.size := by
  refine admissible.lt child ?_
  cases operation with
  | setElement | replaceChild | setChild => simp [handles, ← same, exchange]
  | _ => cases same

theorem apply_unnested (owned : tree.Owned) (admissible : operation.Admissible tree)
    (unnested : tree.Unnested) (never : ¬ operation.Nests tree) :
    (operation.apply tree).Unnested := by
  rw [apply_eq]
  cases carried : operation.attempt tree with
  | none => exact unnested
  | some after =>
    have apart : ¬ tree.Akin operation.exchange.1 operation.exchange.2 :=
      fun akin => never ⟨akin, by rw [carried]; rfl⟩
    dsimp only [Option.getD_some]
    cases operation with
    | make construction span =>
      obtain rfl := Option.some.inj carried
      exact owned.build_unnested unnested construction span admissible.lt
    | append list node | insert list position node =>
      exact owned.insert_unnested
        (fun child same => admissible.lt child (by simp [handles, same])) unnested carried
    | setElement list position node =>
      exact owned.setElement_unnested admissible.exchange_lt unnested apart carried
    | removeAt list position =>
      obtain rfl := Option.some.inj carried
      exact owned.removeAt_unnested unnested list position
    | replaceChild parent old new =>
      exact owned.replaceChild_unnested admissible.exchange_lt unnested apart carried
    | setChild parent position new =>
      exact owned.setChild_unnested admissible.exchange_lt unnested apart carried
    | combineWithComma left right =>
      obtain rfl := Option.some.inj carried
      exact owned.combineWithComma_unnested unnested admissible.lt
    | setScope node scope => exact unnested.respanned (Tree.setScope_respanned carried)
    | bindLookup node scopes =>
      obtain ⟨bound, binds, rfl⟩ := Option.map_eq_some_iff.mp carried
      exact unnested.respanned (Tree.bindLookup_respanned binds)

/-- All three calls come to a replacement. -/
theorem Nests.replaceChild (nests : operation.Nests tree) :
    ∃ old, tree.replaceChild operation.exchange.1 old operation.exchange.2 =
      some (operation.apply tree) := by
  obtain ⟨akin, carried⟩ := nests
  obtain ⟨after, carried⟩ := Option.isSome_iff_exists.mp carried
  rw [apply_eq, carried, Option.getD_some]
  have given : ∃ child, operation.exchange.2 = some child := by
    refine Option.ne_none_iff_exists'.mp fun nothing => ?_
    have isList := akin.1
    rw [← akin.2, nothing] at isList
    cases isList
  obtain ⟨child, given⟩ := given
  cases operation with
  | replaceChild holder old new => exact ⟨old, carried⟩
  | setElement holder position new =>
    obtain rfl : new = some child := given
    exact Tree.setElement_some carried
  | setChild holder position new =>
    obtain rfl : new = some child := given
    exact Tree.setElement_some ((Tree.setChild_of_isList akin.1).symm.trans carried)
  | _ => cases given

theorem Nests.not_unnested (nests : operation.Nests tree) (owned : tree.Owned)
    (admissible : operation.Admissible tree) (unnested : tree.Unnested) :
    ¬ (operation.apply tree).Unnested := by
  obtain ⟨old, replaced⟩ := nests.replaceChild
  exact owned.not_unnested_of_replaced admissible.exchange_lt unnested nests.1 replaced

end Operation

namespace Tree

variable {tree : Tree}

theorem unnested_empty : ({} : Tree).Unnested := by
  simp [Unnested, slots, get?]

/-- In a tree that calls have made without putting a list in the place of an element of a list
of its family, no list has a list of its family among its elements. One more call leads to
such a list just when it does put one there. -/
theorem Reached.nesting (reached : Reached (fun tree operation => ¬ operation.Nests tree) tree) :
    tree.Unnested ∧ ∀ operation : Operation, operation.Admissible tree →
      ((operation.apply tree).Unnested ↔ ¬ operation.Nests tree) := by
  have unnested : tree.Unnested := by
    induction reached with
    | empty => exact unnested_empty
    | step reached admissible never ih =>
      exact Operation.apply_unnested reached.owned admissible ih never
  refine ⟨unnested, fun operation admissible => ⟨fun apart nests => ?_, fun never => ?_⟩⟩
  · exact nests.not_unnested reached.owned admissible unnested apart
  · exact Operation.apply_unnested reached.owned admissible unnested never

/-- Two lists of one expression each. Appended to the first, the second gives up its element;
put in the place of the element there, it comes in whole. -/
theorem unnested_of_two_lists :
    let left := (Operation.make (.lookup "a") .empty).apply {}
    let first := (Operation.make (.list .expressions [some 0]) .empty).apply left
    let right := (Operation.make (.lookup "b") .empty).apply first
    let second := (Operation.make (.list .expressions [some 2]) .empty).apply right
    Reached (fun tree operation => ¬ operation.Nests tree) second ∧ second.Unnested ∧
      ((Operation.append (some 1) (some 3)).apply second).Unnested ∧
      ¬ ((Operation.setElement (some 1) 0 (some 3)).apply second).Unnested := by
  intro left first right second
  have leftReached : Reached (fun tree operation => ¬ operation.Nests tree) left :=
    .step .empty (by decide) (by decide)
  have firstReached : Reached (fun tree operation => ¬ operation.Nests tree) first :=
    .step leftReached (by decide) (by decide)
  have rightReached : Reached (fun tree operation => ¬ operation.Nests tree) right :=
    .step firstReached (by decide) (by decide)
  have reached : Reached (fun tree operation => ¬ operation.Nests tree) second :=
    .step rightReached (by decide) (by decide)
  obtain ⟨unnested, further⟩ := reached.nesting
  refine ⟨reached, unnested, (further _ (by decide)).mpr (by decide), fun apart => ?_⟩
  exact absurd ((further _ (by decide)).mp apart) (by decide)

/-- If every call may be made, a list can come to be among the elements of another. -/
theorem not_unnested_of_replaced_element :
    ¬ ∀ tree, Reached (fun _ _ => True) tree → tree.Unnested := by
  let left := (Operation.make (.lookup "a") .empty).apply {}
  let first := (Operation.make (.list .expressions [some 0]) .empty).apply left
  let right := (Operation.make (.lookup "b") .empty).apply first
  let second := (Operation.make (.list .expressions [some 2]) .empty).apply right
  let replaced := (Operation.replaceChild (some 1) (some 0) (some 3)).apply second
  have leftReached : Reached (fun _ _ => True) left := .step .empty (by decide) trivial
  have firstReached : Reached (fun _ _ => True) first := .step leftReached (by decide) trivial
  have rightReached : Reached (fun _ _ => True) right := .step firstReached (by decide) trivial
  have secondReached : Reached (fun _ _ => True) second := .step rightReached (by decide) trivial
  have reached : Reached (fun _ _ => True) replaced := .step secondReached (by decide) trivial
  exact fun all => all replaced reached 1 3 (by decide) (by decide)

end Tree

end ScriptSyntax
