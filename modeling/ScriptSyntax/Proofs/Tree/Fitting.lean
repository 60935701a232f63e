import ScriptSyntax.Proofs.Tree.Spans

/-! Spans cover the spans below them. One child may be loose: it has just been put where
it is, or its span has just changed, and the spans above it are still to be widened. -/
namespace ScriptSyntax.Tree

variable {tree before after : Tree} {law : Span → Prop} {spare : NodeId → Prop}
  {loose : Handle} {list parent child above : NodeId}

/-- Every child fits its parent, but for the loose one, and a parent that counts for
nothing has such children only, but for spare ones. -/
structure Fitted (law : Span → Prop) (spare : NodeId → Prop) (loose : Handle) (tree : Tree) :
    Prop where
  lawful : tree.SpansAre law
  fits : ∀ child parent, tree.parentOf (some child) = some parent → loose ≠ some child →
    (tree.spanOf child).Fits (tree.spanOf parent)
  seen : ∀ child parent, tree.parentOf (some child) = some parent → loose ≠ some child →
    (tree.spanOf parent).isPlaceholder → (tree.spanOf child).isPlaceholder ∨ spare child

/-- No child is loose, and what counts for nothing holds nothing that counts. -/
abbrev Snug (law : Span → Prop) (tree : Tree) : Prop := Fitted law (fun _ => False) none tree

/-- The node stands for text, or none of its children does. -/
def Calm (tree : Tree) (parent : NodeId) : Prop :=
  (tree.spanOf parent).isPlaceholder → ∀ child, tree.parentOf (some child) = some parent →
    (tree.spanOf child).isPlaceholder

/-- The spare nodes stand one above the other, up to a node without a parent. -/
structure Line (spare : NodeId → Prop) (tree : Tree) : Prop where
  climbs : ∀ id parent, tree.parentOf (some id) = some parent → spare id → spare parent
  single : ∀ first second parent, tree.parentOf (some first) = some parent →
    tree.parentOf (some second) = some parent → spare first → spare second → first = second

/-- A node and those above it. -/
def Upward (tree : Tree) (id : NodeId) (other : NodeId) : Prop := other = id ∨ tree.Above other id

theorem Upward.of_parent (upward : tree.Upward child parent)
    (linked : tree.parentOf (some parent) = some above) : tree.Upward child above := by
  rcases upward with rfl | higher
  · exact .inr (.of_parent linked)
  · exact .inr (higher.tail linked)

/-- Of two nodes above a third, one is above the other. -/
theorem Upward.connected (first : tree.Upward child parent) (second : tree.Upward child above) :
    tree.Upward parent above ∨ tree.Upward above parent := by
  rcases first with rfl | first
  · exact .inl second
  induction first with
  | single linked =>
    rcases second with rfl | second
    · exact .inr (.inr (.of_parent linked))
    · obtain ⟨next, same, further⟩ := second.cases
      obtain rfl := Option.some.inj (linked.symm.trans same)
      exact .inl further
  | tail _ linked ih =>
    rcases ih with below | higher
    · rcases below with rfl | below
      · exact .inr (.inr (.of_parent linked))
      · obtain ⟨next, same, further⟩ := below.cases
        obtain rfl := Option.some.inj (linked.symm.trans same)
        exact .inl further
    · exact .inr (higher.of_parent linked)

theorem Acyclic.line (acyclic : tree.Acyclic) (id : NodeId) : Line (tree.Upward id) tree where
  climbs _ _ linked upward := upward.of_parent linked
  single first second parent below beside one other := by
    -- one of the two is above the other, and so is their parent, unless they are the same
    have apart : ∀ low high, tree.parentOf (some low) = some parent →
        tree.parentOf (some high) = some parent → tree.Upward low high → low = high := by
      rintro low high lower higher (same | further)
      · exact same.symm
      · obtain ⟨next, linked, reach⟩ := further.cases
        obtain rfl := Option.some.inj (lower.symm.trans linked)
        rcases reach with rfl | reach
        · exact absurd (.of_parent higher) (acyclic _)
        · exact absurd (reach.lift higher) (acyclic _)
    rcases one.connected other with up | down
    · exact apart first second below beside up
    · exact (apart second first beside below down).symm

theorem Line.respanned (line : Line spare before) (respanned : Respanned before after) :
    Line spare after where
  climbs id parent linked := line.climbs id parent (respanned.parentOf _ ▸ linked)
  single first second parent below beside :=
    line.single first second parent (respanned.parentOf _ ▸ below) (respanned.parentOf _ ▸ beside)

theorem Acyclic.respanned (acyclic : before.Acyclic) (respanned : Respanned before after) :
    after.Acyclic :=
  fun id circle => acyclic id (circle.mono fun _ _ linked => respanned.parentOf _ ▸ linked)

/-- A parent has one node fewer above it than its child. -/
theorem Acyclic.fewer_above {limit : Nat} (acyclic : tree.Acyclic)
    (linked : tree.parentOf (some child) = some parent)
    (depth : ∀ nodes : List NodeId, nodes.Nodup → (∀ above ∈ nodes, tree.Above above child) →
      nodes.length ≤ limit + 1) (nodes : List NodeId) (distinct : nodes.Nodup)
    (all : ∀ above ∈ nodes, tree.Above above parent) : nodes.length ≤ limit := by
  have missing : parent ∉ nodes := fun member => acyclic parent (all parent member)
  have bound := depth (parent :: nodes) (List.nodup_cons.mpr ⟨missing, distinct⟩) (by
    intro above member
    rcases List.mem_cons.mp member with rfl | further
    · exact .of_parent linked
    · exact (all above further).lift linked)
  exact Nat.le_of_succ_le_succ bound

theorem ShallowAt.respanned (shallow : before.ShallowAt child)
    (respanned : Respanned before after) : after.ShallowAt child :=
  shallow.mono fun _ higher => higher.mono fun _ _ linked => respanned.parentOf _ ▸ linked

namespace Fitted

theorem loosen (fitted : Fitted law spare none tree) (loose : Handle) :
    Fitted law spare loose tree where
  lawful := fitted.lawful
  fits child parent linked _ := fitted.fits child parent linked nofun
  seen child parent linked _ := fitted.seen child parent linked nofun

/-- A loose child that fits its parent is no longer loose. -/
theorem settle (fitted : Fitted law spare (some child) tree)
    (fits : ∀ parent, tree.parentOf (some child) = some parent →
      (tree.spanOf child).Fits (tree.spanOf parent))
    (seen : (tree.spanOf child).isPlaceholder ∨ spare child) : Fitted law spare none tree where
  lawful := fitted.lawful
  fits id parent linked _ := by
    by_cases same : child = id
    · subst same
      exact fits parent linked
    · exact fitted.fits id parent linked fun here => same (Option.some.inj here)
  seen id parent linked _ blank := by
    by_cases same : child = id
    · subst same
      exact seen
    · exact fitted.seen id parent linked (fun here => same (Option.some.inj here)) blank

/-- One node has a new span. Its children must fit it, and it must fit its parent unless
it is loose from then on. -/
theorem setSpan {next : Handle} {span : Span} (fitted : Fitted law spare loose tree)
    (present : parent < tree.size) (apart : tree.parentOf (some parent) ≠ some parent)
    (holds : law span)
    (passes : ∀ child, loose = some child → tree.parentOf (some child) = some parent ∨
      next = some child)
    (below : ∀ child, tree.parentOf (some child) = some parent →
      (tree.spanOf child).Fits span ∧
        (span.isPlaceholder → (tree.spanOf child).isPlaceholder ∨ spare child))
    (beyond : ∀ holder, tree.parentOf (some parent) = some holder → next ≠ some parent →
      span.Fits (tree.spanOf holder) ∧
        ((tree.spanOf holder).isPlaceholder → span.isPlaceholder ∨ spare parent)) :
    Fitted law spare next (tree.setSpan (some parent) span) := by
  have links (id : NodeId) : (tree.setSpan (some parent) span).parentOf (some id) =
      tree.parentOf (some id) := (Respanned.setSpan tree (some parent) span).parentOf _
  have both : ∀ child holder, tree.parentOf (some child) = some holder → next ≠ some child →
      ((tree.setSpan (some parent) span).spanOf child).Fits
        ((tree.setSpan (some parent) span).spanOf holder) ∧
      (((tree.setSpan (some parent) span).spanOf holder).isPlaceholder →
        ((tree.setSpan (some parent) span).spanOf child).isPlaceholder ∨ spare child) := by
    intro child holder linked fixed
    rw [spanOf_setSpan present, spanOf_setSpan present]
    by_cases top : holder = parent
    · subst top
      have distinct : child ≠ holder := fun same => apart (same ▸ linked)
      rw [if_pos rfl, if_neg distinct]
      exact below child linked
    rw [if_neg top]
    by_cases here : child = parent
    · subst here
      rw [if_pos rfl]
      exact beyond holder linked fixed
    · have firm : loose ≠ some child := by
        intro same
        rcases passes child same with own | now
        · exact top (Option.some.inj (linked.symm.trans own))
        · exact fixed now
      rw [if_neg here]
      exact ⟨fitted.fits child holder linked firm, fitted.seen child holder linked firm⟩
  refine ⟨fitted.lawful.setSpan holds _, fun child holder linked fixed => ?_,
    fun child holder linked fixed => ?_⟩
  · exact (both child holder (links child ▸ linked) fixed).1
  · exact (both child holder (links child ▸ linked) fixed).2

theorem mono {other : NodeId → Prop} (fitted : Fitted law spare loose tree)
    (wider : ∀ id, spare id → other id) : Fitted law other loose tree where
  lawful := fitted.lawful
  fits := fitted.fits
  seen child parent linked firm blank :=
    (fitted.seen child parent linked firm blank).imp_right (wider child)

/-- Without spare children every node is calm. -/
theorem calm (fitted : Snug law tree) (parent : NodeId) :
    tree.Calm parent :=
  fun blank child linked => (fitted.seen child parent linked nofun blank).resolve_right id

/-- A child that has just been given a parent is loose. -/
theorem placed {old : Handle} (fitted : Fitted law spare none before)
    (placed : Placed before after parent child old) : Fitted law spare (some child) after := by
  have links : ∀ id above, after.parentOf (some id) = some above → some child ≠ some id →
      before.parentOf (some id) = some above := by
    intro id above linked firm
    rw [placed.parentOf] at linked
    split at linked
    · cases linked
    split at linked
    · next same => exact absurd (congrArg some same.symm) firm
    · exact linked
  refine ⟨fitted.lawful.of_same placed.span?, fun id above linked firm => ?_,
    fun id above linked firm => ?_⟩
  · rw [spanOf_congr (placed.span? _), spanOf_congr (placed.span? _)]
    exact fitted.fits id above (links id above linked firm) nofun
  · rw [spanOf_congr (placed.span? _), spanOf_congr (placed.span? _)]
    exact fitted.seen id above (links id above linked firm) nofun

/-- A child that belongs to nobody has nothing to fit. -/
theorem relinked {free : Tree} (fitted : Fitted law spare none tree)
    (relinked : Relinked tree free child none) : Fitted law spare none free where
  lawful := fitted.lawful.of_same relinked.span?
  fits id parent linked _ := by
    rw [spanOf_congr (relinked.span? _), spanOf_congr (relinked.span? _)]
    exact fitted.fits id parent (relinked.links id parent linked) nofun
  seen id parent linked _ := by
    rw [spanOf_congr (relinked.span? _), spanOf_congr (relinked.span? _)]
    exact fitted.seen id parent (relinked.links id parent linked) nofun

section Widening

variable (stable : Span.Stable law) (ordered : ∀ {span}, law span → span.Ordered)

include stable ordered

/-- Widening the spans above a loose node leaves none loose. Each step passes on the
looseness to the parent, whose other children count for nothing if it did so itself. -/
theorem bubbleSpan {limit : Nat} (fitted : Fitted law spare (some child) tree)
    (owned : tree.Owned) (acyclic : tree.Acyclic) (line : Line spare tree)
    (starts : (tree.spanOf child).isPlaceholder ∨ spare child)
    (depth : ∀ nodes : List NodeId, nodes.Nodup → (∀ above ∈ nodes, tree.Above above child) →
      nodes.length ≤ limit) :
    Fitted law spare none (tree.bubbleSpan limit (some child)) := by
  induction limit generalizing tree child with
  | zero =>
    refine fitted.settle (fun parent linked => ?_) starts
    have bound := depth [parent] (by simp) (by simpa using .of_parent linked)
    exact absurd bound (Nat.not_succ_le_zero 0)
  | succ limit ih =>
    cases linked : tree.parentOf (some child) with
    | none =>
      rw [bubbleSpan_of_root linked]
      exact fitted.settle (fun parent same => by rw [linked] at same; cases same) starts
    | some parent =>
      have present := owned.parent_lt linked
      rw [bubbleSpan_eq linked present (child_lt linked)]
      split
      · next fits =>
        refine fitted.settle (fun other same => ?_) starts
        obtain rfl := Option.some.inj (linked.symm.trans same)
        exact fits
      next short =>
      have solid : ¬ (tree.spanOf child).isPlaceholder := fun blank => short (.inl blank)
      have starts := starts.resolve_left solid
      have apart : tree.parentOf (some parent) ≠ some parent :=
        fun own => acyclic parent (.of_parent own)
      have respanned := Respanned.setSpan tree (some parent)
        ((tree.spanOf parent).union (tree.spanOf child))
      have holds := stable.union (fitted.lawful.spanOf present)
        (fitted.lawful.spanOf (child_lt linked))
      have wide : ¬ ((tree.spanOf parent).union (tree.spanOf child)).isPlaceholder := by
        rw [Span.union_isPlaceholder (ordered (fitted.lawful.spanOf (child_lt linked)))]
        exact fun both => solid both.2
      refine ih (fitted.setSpan present apart holds ?_ ?_ fun _ _ moved => absurd rfl moved)
        (owned.respanned respanned) (acyclic.respanned respanned) (line.respanned respanned)
        (.inr (line.climbs child parent linked starts)) ?_
      · rintro other same
        exact .inl (Option.some.inj same ▸ linked)
      · intro other below
        refine ⟨?_, fun blank => absurd blank wide⟩
        by_cases same : other = child
        · rw [same]
          exact Span.fits_union_right ..
        have firm : some child ≠ some other := fun here => same (Option.some.inj here).symm
        by_cases blank : (tree.spanOf parent).isPlaceholder
        · rcases fitted.seen other parent below firm blank with none | also
          · exact .inl none
          · exact absurd (line.single other child parent below linked also starts) same
        · exact (fitted.fits other parent below firm).union blank _
      · exact fun nodes distinct all => acyclic.fewer_above linked depth nodes distinct
          fun above member => (all above member).mono fun _ _ held => respanned.parentOf _ ▸ held

theorem widenAncestors (fitted : Fitted law spare (some child) tree)
    (owned : tree.Owned) (acyclic : tree.Acyclic) (line : Line spare tree)
    (starts : (tree.spanOf child).isPlaceholder ∨ spare child)
    (shallow : tree.ShallowAt child) :
    Fitted law spare none (tree.widenAncestors (some child)) :=
  fitted.bubbleSpan stable ordered owned acyclic line starts shallow

/-- A list takes the hull of its elements for its span. It fits its parent if it did so
before and its elements do. -/
theorem recomputeListSpan {next : Handle} (fitted : Fitted law spare loose tree)
    (present : list < tree.size) (apart : tree.parentOf (some list) ≠ some list)
    (own : ∀ child, some child ∈ tree.slots (some list) ↔
      tree.parentOf (some child) = some list)
    (passes : ∀ child, loose = some child → tree.parentOf (some child) = some list ∨
      next = some child)
    (beyond : ∀ holder, tree.parentOf (some list) = some holder → next ≠ some list →
      (∀ element, tree.parentOf (some element) = some list →
        (tree.spanOf element).Fits (tree.spanOf holder)) ∧
      (tree.spanOf list).Fits (tree.spanOf holder) ∧
      ((tree.spanOf holder).isPlaceholder → spare list ∨ (tree.spanOf list).isPlaceholder ∧
        ∀ element, tree.parentOf (some element) = some list →
          (tree.spanOf element).isPlaceholder)) :
    Fitted law spare next (tree.recomputeListSpan (some list)) := by
  have element {handle : Handle} {span : Span} (member : handle ∈ tree.slots (some list))
      (found : tree.span? handle = some span) :
      ∃ child, tree.parentOf (some child) = some list ∧ tree.spanOf child = span := by
    cases handle with
    | none => cases found
    | some child => exact ⟨child, (own child).mp member, by rw [spanOf, found]; rfl⟩
  have reads : tree.SpansAre Span.Ordered := fitted.lawful.imp ordered
  have self : law (tree.spanOf list) := fitted.lawful.spanOf present
  rw [recomputeListSpan_eq present]
  refine fitted.setSpan present apart
    (listHull_of_stable stable self fun handle _ => fitted.lawful handle) passes ?_ ?_
  · intro child linked
    obtain ⟨covered, blank⟩ := listHull_fits reads (tree.spanOf list) ((own child).mpr linked)
      (span?_eq (child_lt linked))
    exact ⟨covered, fun empty => .inl (blank empty)⟩
  · intro holder linked fixed
    obtain ⟨inner, outer, counts⟩ := beyond holder linked fixed
    refine ⟨?_, fun blank => ?_⟩
    · refine (listHull_of_stable (Span.stable_fits _) ⟨ordered self, outer⟩ ?_).2
      intro handle member span found
      obtain ⟨child, below, rfl⟩ := element member found
      exact ⟨reads handle _ found, inner child below⟩
    · rcases counts blank with also | ⟨empty, others⟩
      · exact .inr also
      · refine .inl (listHull_of_stable Span.stable_isPlaceholder empty ?_)
        intro handle member span found
        obtain ⟨child, below, rfl⟩ := element member found
        exact others child below

/-- A list that has lost an element. What counted for nothing must hold only such
elements. -/
theorem refresh (fitted : Fitted law spare none tree)
    (present : list < tree.size) (apart : tree.parentOf (some list) ≠ some list)
    (own : ∀ child, some child ∈ tree.slots (some list) ↔
      tree.parentOf (some child) = some list)
    (calm : tree.Calm list) :
    Fitted law spare none (tree.recomputeListSpan (some list)) := by
  refine fitted.recomputeListSpan stable ordered present apart own nofun ?_
  intro holder linked _
  have outer := fitted.fits list holder linked nofun
  refine ⟨fun element below => ?_, outer, fun blank => ?_⟩
  · rcases fitted.fits element list below nofun with none | covered
    · exact .inl none
    rcases outer with empty | wide
    · exact .inl (calm empty element below)
    · exact .inr (wide.trans covered)
  · rcases fitted.seen list holder linked nofun blank with empty | also
    · exact .inr ⟨empty, calm empty⟩
    · exact .inl also

/-- A list from which a child was taken, whose span is then brought up to date. -/
theorem recompute_relinked {free : Tree} {fresh filled : Nat}
    (fitted : Fitted law spare none tree) (relinked : Relinked tree free child none)
    (owned : free.OwnedUpTo fresh filled) (isList : (tree.family? (some list)).isSome)
    (apart : tree.parentOf (some list) ≠ some list) (calm : tree.Calm list) :
    Fitted law spare none (free.recomputeListSpan (some list)) := by
  have links : ∀ id above, free.parentOf (some id) = some above →
      tree.parentOf (some id) = some above := relinked.links
  rw [← relinked.family?] at isList
  refine (fitted.relinked relinked).refresh stable ordered (lt_size_of_family? isList)
    (fun own => apart (links list list own)) (fun _ => owned.mem_slots_iff isList) ?_
  intro blank id linked
  rw [spanOf_congr (relinked.span? _)] at blank ⊢
  exact calm blank id (links id list linked)

/-- A child leaves the slot it is in. -/
theorem detach {fresh filled : Nat} (fitted : Fitted law spare none tree)
    (owned : tree.OwnedUpTo fresh filled)
    (apart : ∀ id, tree.parentOf (some id) ≠ some id)
    (calm : ∀ previous, tree.parentOf (some child) = some previous →
      (tree.family? (some previous)).isSome → tree.Calm previous) :
    Fitted law spare none (tree.detach (some child)) := by
  obtain ⟨free, relinked, still, -, ⟨-, same⟩ | ⟨previous, node, held, found, same⟩⟩ :=
    owned.detach child
  · rw [same]
    exact fitted.relinked relinked
  rw [same, Tree.refreshIfList]
  split
  · next isList =>
    have family : (tree.family? (some previous)).isSome := by
      rw [family?_of_get? found]
      exact isList
    exact fitted.recompute_relinked stable ordered relinked still family (apart previous)
      (calm previous held family)
  · exact fitted.relinked relinked

/-- A child is taken out of its parent for good. -/
theorem removeChild (fitted : Fitted law spare none tree) (owned : tree.Owned)
    (apart : ∀ id, tree.parentOf (some id) ≠ some id)
    (held : tree.parentOf (some child) = some parent)
    (calm : (tree.family? (some parent)).isSome → tree.Calm parent) :
    Fitted law spare none (tree.removeChild parent (some child)) := by
  rw [← detach_eq_removeChild held]
  refine fitted.detach stable ordered owned.upTo apart fun previous linked => ?_
  obtain rfl := Option.some.inj (held.symm.trans linked)
  exact calm

theorem removeAt (fitted : Fitted law spare none tree) (owned : tree.Owned)
    (apart : ∀ id, tree.parentOf (some id) ≠ some id) {handle : Handle} {position : Nat}
    (calm : ∀ list, handle = some list → tree.Calm list) :
    Fitted law spare none (tree.removeAt handle position).1 := by
  rcases removeAt_cases tree handle position with same | ⟨list, removed, rfl, isList, there, same⟩
  · rwa [same]
  rw [same]
  obtain ⟨child, rfl, still, relinked⟩ := owned.unlink_element isList there
  exact fitted.recompute_relinked stable ordered relinked still.upTo isList (apart list)
    (calm list rfl)

omit stable in
/-- The union of a node's span and that of a new child covers all its children. -/
theorem unionWith (fitted : Fitted law spare (some child) tree) (inside : child < tree.size)
    (top : ∀ id, tree.parentOf (some id) = some parent → ¬ spare id) (id : NodeId)
    (linked : tree.parentOf (some id) = some parent) :
    (tree.spanOf id).Fits ((tree.spanOf parent).union (tree.spanOf child)) ∧
      (((tree.spanOf parent).union (tree.spanOf child)).isPlaceholder →
        (tree.spanOf id).isPlaceholder) := by
  have width := Span.union_isPlaceholder (ordered (fitted.lawful.spanOf inside))
    (a := tree.spanOf parent)
  by_cases same : child = id
  · exact same ▸ ⟨Span.fits_union_right .., fun empty => (width.mp empty).2⟩
  have firm : some child ≠ some id := fun here => same (Option.some.inj here)
  have blank (none : (tree.spanOf parent).isPlaceholder) : (tree.spanOf id).isPlaceholder :=
    (fitted.seen id parent linked firm none).resolve_right (top id linked)
  refine ⟨?_, fun empty => blank (width.mp empty).1⟩
  by_cases none : (tree.spanOf parent).isPlaceholder
  · exact .inl (blank none)
  · exact (fitted.fits id parent linked firm).union none _

/-- The span that a list takes for the sake of a new element covers all elements. It
counts for nothing if neither list nor element stood for text. -/
theorem spanWith (alone : Prop) [Decidable alone] (fitted : Fitted law spare (some child) tree)
    (owned : tree.Owned) (top : ∀ id, tree.parentOf (some id) = some list → ¬ spare id)
    (held : tree.parentOf (some child) = some list) :
    ∃ span, (if alone then tree.recomputeListSpan (some list)
        else tree.widenOver (some list) (some child)) = tree.setSpan (some list) span ∧
      law span ∧
      (∀ id, tree.parentOf (some id) = some list →
        (tree.spanOf id).Fits span ∧ (span.isPlaceholder → (tree.spanOf id).isPlaceholder)) ∧
      ((tree.spanOf list).isPlaceholder → (tree.spanOf child).isPlaceholder →
        span.isPlaceholder) := by
  have present := owned.parent_lt held
  have inside := child_lt held
  have self := fitted.lawful.spanOf present
  -- a list that counts for nothing has no other element that stands for text
  have blank (none : (tree.spanOf list).isPlaceholder) (id : NodeId)
      (linked : tree.parentOf (some id) = some list) (other : child ≠ id) :
      (tree.spanOf id).isPlaceholder :=
    (fitted.seen id list linked (fun here => other (Option.some.inj here)) none).resolve_right
      (top id linked)
  split
  · rw [recomputeListSpan_eq present]
    refine ⟨_, rfl, listHull_of_stable stable self fun handle _ => fitted.lawful handle, ?_, ?_⟩
    · intro id linked
      exact listHull_fits (fitted.lawful.imp ordered) _
        (owned.mem_slots_iff.mpr linked) (span?_eq (child_lt linked))
    · intro none also
      refine listHull_of_stable Span.stable_isPlaceholder none fun handle member span found => ?_
      cases handle with
      | none => cases found
      | some id =>
        rw [← spanOf_eq found]
        by_cases same : child = id
        · exact same ▸ also
        · exact blank none id (owned.mem_slots_iff.mp member) same
  · rw [widenOver_eq present inside]
    have width := Span.union_isPlaceholder (ordered (fitted.lawful.spanOf inside))
      (a := tree.spanOf list)
    exact ⟨_, rfl, stable.union self (fitted.lawful.spanOf inside),
      fitted.unionWith ordered inside top, fun none also => width.mpr ⟨none, also⟩⟩

/-- The span of a list takes in a new element, and then the spans above it are widened. -/
theorem inserted {alone : Prop} [Decidable alone] (fitted : Fitted law spare (some child) tree)
    (owned : tree.Owned) (acyclic : tree.Acyclic) (line : Line spare tree)
    (top : ∀ id, tree.parentOf (some id) = some list → ¬ spare id)
    (held : tree.parentOf (some child) = some list) (shallow : tree.ShallowAt list)
    (starts : (tree.spanOf list).isPlaceholder ∧ (tree.spanOf child).isPlaceholder ∨
      spare list) :
    Fitted law spare none ((if alone then tree.recomputeListSpan (some list)
      else tree.widenOver (some list) (some child)).widenAncestors (some list)) := by
  have present := owned.parent_lt held
  obtain ⟨span, same, holds, below, blank⟩ :=
    spanWith stable ordered alone fitted owned top held
  have respanned := Respanned.setSpan tree (some list) span
  rw [same]
  refine (fitted.setSpan present (fun own => acyclic list (.of_parent own)) holds ?_ ?_
    fun _ _ moved => absurd rfl moved).widenAncestors stable ordered (owned.respanned respanned)
      (acyclic.respanned respanned) (line.respanned respanned) ?_ (shallow.respanned respanned)
  · rintro id here
    exact .inl (Option.some.inj here ▸ held)
  · exact fun id linked => ⟨(below id linked).1, fun empty => .inl ((below id linked).2 empty)⟩
  · rw [spanOf_setSpan present, if_pos rfl]
    exact starts.imp_left fun both => blank both.1 both.2

/-- A child has taken the place of another: the span of a list is that of its elements from
then on, and must still fit its parent; the spans above others are widened. -/
theorem replaced {node : Node} (fitted : Fitted law (tree.Upward child) (some child) tree)
    (owned : tree.Owned) (acyclic : tree.Acyclic)
    (held : tree.parentOf (some child) = some parent) (shallow : tree.ShallowAt child)
    (room : node.isList → ∀ holder, tree.parentOf (some parent) = some holder →
      (tree.spanOf child).Fits (tree.spanOf holder)) :
    Fitted law (tree.Upward child) none
      ((tree.refreshIfList parent node).widenAncestors (some child)) := by
  have line := acyclic.line child
  have starts : tree.Upward child child := .inl rfl
  unfold Tree.refreshIfList
  split
  · next isList =>
    have respanned := Respanned.recomputeListSpan tree (some parent)
    refine ((fitted.recomputeListSpan stable ordered (owned.parent_lt held)
      (fun own => acyclic parent (.of_parent own)) (fun _ => owned.mem_slots_iff) ?_
      fun holder linked _ => ⟨fun element below => ?_, ?_, fun _ => .inl ?_⟩).loosen
        (some child)).widenAncestors stable ordered (owned.respanned respanned)
          (acyclic.respanned respanned) (line.respanned respanned) (.inr starts)
            (shallow.respanned respanned)
    · rintro id same
      exact .inl (Option.some.inj same ▸ held)
    · by_cases same : child = element
      · exact same ▸ room isList holder linked
      have firm : some child ≠ some element := fun here => same (Option.some.inj here)
      rcases fitted.fits element parent below firm with none | covered
      · exact .inl none
      have apart : some child ≠ some parent := by
        intro here
        obtain rfl := Option.some.inj here
        exact acyclic child (.of_parent held)
      rcases fitted.fits parent holder linked apart with empty | wide
      · refine .inl ((fitted.seen element parent below firm empty).resolve_right fun up => ?_)
        exact same (line.single child element parent held below starts up)
      · exact .inr (wide.trans covered)
    · refine fitted.fits parent holder linked fun here => ?_
      obtain rfl := Option.some.inj here
      exact acyclic child (.of_parent held)
    · exact line.climbs child parent held starts
  · exact fitted.widenAncestors stable ordered owned acyclic line (.inr starts) shallow

end Widening

end Fitted

end ScriptSyntax.Tree
