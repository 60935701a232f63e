import ScriptSyntax.Proofs.Tree.Operations

/-! Spans that are made of other spans: unions, hulls of lists, and what a list keeps when
it is emptied. A law that these keep holds of every span of a tree once it holds of every
span that is supplied. -/
namespace ScriptSyntax

namespace Span

variable {a b inner outer : Span}

/-- The span does not end before it starts. -/
def Ordered (span : Span) : Prop := span.start ≤ span.stop

/-- The span counts for nothing or is covered by the other. -/
def Fits (inner outer : Span) : Prop := inner.isPlaceholder ∨ outer.Covers inner

instance (span : Span) : Decidable span.Ordered := inferInstanceAs (Decidable (_ ≤ _))

instance (inner outer : Span) : Decidable (inner.Fits outer) :=
  inferInstanceAs (Decidable (_ ∨ _))

theorem isPlaceholder_iff : a.isPlaceholder ↔ a.start = a.stop ∧ a.lines = none := by
  simp [isPlaceholder, isEmpty]

theorem Covers.trans {middle : Span} (first : outer.Covers middle) (second : middle.Covers inner) :
    outer.Covers inner :=
  ⟨Nat.le_trans first.1 second.1, Nat.le_trans second.2 first.2⟩

theorem union_ordered (first : a.Ordered) (second : b.Ordered) : (a.union b).Ordered := by
  unfold union
  split
  · exact first
  split
  · exact second
  · simp only [Ordered, combine] at first second ⊢
    omega

theorem union_isPlaceholder (ordered : b.Ordered) :
    (a.union b).isPlaceholder ↔ a.isPlaceholder ∧ b.isPlaceholder := by
  unfold union
  split
  · next blank => simp [blank]
  next solid =>
  split
  · next blank =>
    have kept : (b.withKind a.kind).isPlaceholder = b.isPlaceholder := rfl
    simp [blank, kept]
  · next wide =>
    refine iff_of_false ?_ (fun both => wide both.1)
    rw [isPlaceholder_iff] at solid wide ⊢
    simp only [Ordered, combine] at ordered ⊢
    rintro ⟨width, lines⟩
    rw [Option.orElse_eq_orElse, Option.orElse_eq_or, Option.or_eq_none_iff] at lines
    exact solid ⟨by omega, lines.2⟩

/-- A union covers its second part. -/
theorem fits_union_right (a b : Span) : b.Fits (a.union b) := by
  unfold union
  split
  · next blank => exact .inl blank
  split
  · exact .inr ⟨Nat.le_refl _, Nat.le_refl _⟩
  · exact .inr ⟨Nat.min_le_right .., Nat.le_max_right ..⟩

/-- A union covers what its first part covers, unless that counts for nothing. -/
theorem Fits.union (fits : inner.Fits a) (solid : ¬ a.isPlaceholder) (b : Span) :
    inner.Fits (a.union b) := by
  rcases fits with blank | covered
  · exact .inl blank
  · refine .inr (Covers.trans ?_ covered)
    unfold Span.union
    rw [if_neg solid]
    split
    · exact ⟨Nat.le_refl _, Nat.le_refl _⟩
    · exact ⟨Nat.min_le_left .., Nat.le_max_left ..⟩

theorem fits_union_left (a b : Span) : a.Fits (a.union b) := by
  by_cases blank : a.isPlaceholder
  · exact .inl blank
  · exact Fits.union (.inr ⟨Nat.le_refl _, Nat.le_refl _⟩) blank b

/-- What covers both parts covers their union. -/
theorem union_fits (first : a.Fits outer) (second : b.Fits outer) : (a.union b).Fits outer := by
  unfold union
  split
  · exact first
  next solid =>
  have covers := second.resolve_left solid
  split
  · exact .inr covers
  · next wide =>
    have both := first.resolve_left wide
    exact .inr ⟨Nat.le_min.mpr ⟨both.1, covers.1⟩, Nat.max_le.mpr ⟨both.2, covers.2⟩⟩

theorem atStart_ordered (span : Span) : span.atStart.Ordered := Nat.le_refl _

theorem atStart_fits (ordered : a.Ordered) (fits : a.Fits outer) : a.atStart.Fits outer := by
  rcases fits with blank | covered
  · exact .inl (isPlaceholder_iff.mpr ⟨rfl, (isPlaceholder_iff.mp blank).2⟩)
  · exact .inr ⟨covered.1, Nat.le_trans ordered covered.2⟩

/-- A law that making a span of other spans keeps. -/
structure Stable (law : Span → Prop) : Prop where
  union : ∀ {a b}, law a → law b → law (a.union b)
  withKind : ∀ {a} kind, law a → law (a.withKind kind)
  atStart : ∀ {a}, law a → law a.atStart

theorem Stable.hull? {law : Span → Prop} (stable : Stable law) {kind : TokenKind}
    {spans : List Span} {hull : Span} (lawful : ∀ span ∈ spans, law span)
    (same : Span.hull? kind spans = some hull) : law hull := by
  cases spans with
  | nil => cases same
  | cons first rest =>
    obtain rfl := Option.some.inj same
    have begins : law (first.withKind kind) := stable.withKind kind (lawful first (by simp))
    have others : ∀ span ∈ rest, law span := fun span member => lawful span (by simp [member])
    exact List.foldlRecOn rest Span.union begins
      fun _ holds span member => stable.union holds (others span member)

theorem hull?_fits {kind : TokenKind} {spans : List Span} {hull : Span}
    (ordered : ∀ span ∈ spans, span.Ordered) (same : Span.hull? kind spans = some hull) :
    ∀ span ∈ spans, span.Fits hull ∧ (hull.isPlaceholder → span.isPlaceholder) := by
  have folds : ∀ (rest : List Span) (base : Span), (∀ span ∈ rest, span.Ordered) →
      ∀ span ∈ base :: rest, span.Fits (rest.foldl Span.union base) ∧
        ((rest.foldl Span.union base).isPlaceholder → span.isPlaceholder) := by
    intro rest
    induction rest with
    | nil =>
      intro base _ span member
      obtain rfl := List.mem_singleton.mp member
      exact ⟨.inr ⟨Nat.le_refl _, Nat.le_refl _⟩, id⟩
    | cons next rest ih =>
      intro base ordered span member
      have further := ih (base.union next) fun other inside => ordered other (by simp [inside])
      obtain ⟨whole, blank⟩ := further (base.union next) (by simp)
      have split := union_isPlaceholder (ordered next (by simp)) (a := base)
      -- what a part of the union covers is covered by the whole fold
      have lift (part : Span) (fits : part.Fits (base.union next))
          (counts : (base.union next).isPlaceholder → part.isPlaceholder) :
          part.Fits (rest.foldl Span.union (base.union next)) := by
        rcases fits with none | covered
        · exact .inl none
        · rcases whole with empty | wide
          · exact .inl (counts empty)
          · exact .inr (wide.trans covered)
      rcases List.mem_cons.mp member with rfl | member
      · exact ⟨lift span (fits_union_left ..) fun empty => (split.mp empty).1,
          fun empty => (split.mp (blank empty)).1⟩
      rcases List.mem_cons.mp member with rfl | member
      · exact ⟨lift span (fits_union_right ..) fun empty => (split.mp empty).2,
          fun empty => (split.mp (blank empty)).2⟩
      · exact further span (by simp [member])
  cases spans with
  | nil => cases same
  | cons first rest =>
    obtain rfl := Option.some.inj same
    intro span member
    have all := folds rest (first.withKind kind) fun other inside =>
      ordered other (by simp [inside])
    rcases List.mem_cons.mp member with rfl | member
    · exact all (span.withKind kind) (by simp)
    · exact all span (by simp [member])

theorem stable_ordered : Stable Ordered where
  union := union_ordered
  withKind _ ordered := ordered
  atStart _ := atStart_ordered _

/-- Spans that are all made from source, or all without. -/
theorem stable_lines (sourced : Bool) :
    Stable fun span => span.Ordered ∧ span.lines.isSome = sourced where
  union {a b} first second := by
    refine ⟨union_ordered first.1 second.1, ?_⟩
    unfold union
    split
    · exact first.2
    split
    · exact second.2
    · have lines : (a.combine b).lines = a.lines.or b.lines := by
        rw [combine, Option.orElse_eq_orElse, Option.orElse_eq_or]
      rw [lines, Option.isSome_or, first.2, second.2, Bool.or_self]
  withKind _ holds := holds
  atStart holds := ⟨atStart_ordered _, holds.2⟩

/-- What the other span covers, or what counts for nothing. -/
theorem stable_fits (outer : Span) : Stable fun span => span.Ordered ∧ span.Fits outer where
  union first second := ⟨union_ordered first.1 second.1, union_fits first.2 second.2⟩
  withKind _ holds := holds
  atStart holds := ⟨atStart_ordered _, atStart_fits holds.1 holds.2⟩

theorem stable_isPlaceholder : Stable fun span => span.isPlaceholder where
  union first second := by
    unfold union
    rwa [if_pos second]
  withKind _ blank := blank
  atStart blank := isPlaceholder_iff.mpr ⟨rfl, (isPlaceholder_iff.mp blank).2⟩

end Span

namespace Tree

variable {tree before after : Tree} {law : Span → Prop} {handle : Handle}
  {list parent child : NodeId} {position : Nat}

/-- The law holds of the span of every node. -/
def SpansAre (law : Span → Prop) (tree : Tree) : Prop :=
  ∀ handle span, tree.span? handle = some span → law span

theorem SpansAre.imp {other : Span → Prop} (lawful : tree.SpansAre law)
    (weaker : ∀ {span}, law span → other span) : tree.SpansAre other :=
  fun handle span found => weaker (lawful handle span found)

theorem SpansAre.of_same (lawful : before.SpansAre law)
    (same : ∀ handle, after.span? handle = before.span? handle) : after.SpansAre law :=
  fun handle span found => lawful handle span (same handle ▸ found)

theorem span?_setSpan (tree : Tree) (id other : NodeId) (span : Span) :
    (tree.setSpan (some id) span).span? (some other) =
      if other = id then (tree.span? (some other)).map fun _ => span
      else tree.span? (some other) := by
  rw [span?, span?, setSpan, get?_modify]
  split <;> simp [Node.withSpan, Function.comp_def]

theorem SpansAre.setSpan (lawful : tree.SpansAre law) {span : Span} (holds : law span)
    (handle : Handle) : (tree.setSpan handle span).SpansAre law := by
  intro place found same
  cases handle with
  | none => exact lawful place found same
  | some id =>
    cases place with
    | none => cases same
    | some other =>
      rw [span?_setSpan] at same
      split at same
      · obtain ⟨_, _, rfl⟩ := Option.map_eq_some_iff.mp same
        exact holds
      · exact lawful _ found same

/-- The hull of a list keeps a law that its old span and those of its elements have. -/
theorem listHull_of_stable (stable : Span.Stable law) {current : Span}
    (holds : law current) {elements : List Handle}
    (lawful : ∀ handle ∈ elements, ∀ span, tree.span? handle = some span → law span) :
    law (tree.listHull current elements) := by
  have spans : ∀ span ∈ elements.filterMap tree.span?, law span := by
    intro span member
    obtain ⟨handle, listed, found⟩ := List.mem_filterMap.mp member
    exact lawful handle listed span found
  unfold Tree.listHull
  cases hull : Span.hull? current.kind (elements.filterMap tree.span?) with
  | none => exact stable.atStart holds
  | some span => exact stable.hull? spans hull

/-- The hull of a list covers its elements, and stands for text if one of them does. -/
theorem listHull_fits (ordered : tree.SpansAre Span.Ordered) (current : Span)
    {elements : List Handle} {span : Span} (member : handle ∈ elements)
    (found : tree.span? handle = some span) :
    span.Fits (tree.listHull current elements) ∧
      ((tree.listHull current elements).isPlaceholder → span.isPlaceholder) := by
  have listed : span ∈ elements.filterMap tree.span? := List.mem_filterMap.mpr ⟨_, member, found⟩
  have spans : ∀ other ∈ elements.filterMap tree.span?, other.Ordered := by
    intro other inside
    obtain ⟨place, -, same⟩ := List.mem_filterMap.mp inside
    exact ordered place other same
  unfold Tree.listHull
  cases hull : Span.hull? current.kind (elements.filterMap tree.span?) with
  | none =>
    cases same : elements.filterMap tree.span? with
    | nil => simp [same] at listed
    | cons first rest => simp [same, Span.hull?] at hull
  | some whole => exact Span.hull?_fits spans hull span listed

/-- The span of a node; an empty one where there is no node. -/
def spanOf (tree : Tree) (id : NodeId) : Span := (tree.span? (some id)).getD .empty

theorem span?_eq (present : parent < tree.size) :
    tree.span? (some parent) = some (tree.spanOf parent) := by
  obtain ⟨node, found⟩ : ∃ node, tree.get? (some parent) = some node :=
    ⟨_, Array.getElem?_eq_getElem present⟩
  rw [spanOf, span?, found]
  rfl

theorem spanOf_congr (same : after.span? (some child) = before.span? (some child)) :
    after.spanOf child = before.spanOf child := by
  rw [spanOf, spanOf, same]

theorem spanOf_setSpan (present : parent < tree.size) (span : Span) (id : NodeId) :
    (tree.setSpan (some parent) span).spanOf id = if id = parent then span else tree.spanOf id := by
  rw [spanOf, span?_setSpan]
  split
  · next same =>
    rw [same, span?_eq present]
    rfl
  · rfl

theorem SpansAre.spanOf (lawful : tree.SpansAre law) (present : parent < tree.size) :
    law (tree.spanOf parent) :=
  lawful _ _ (span?_eq present)

theorem recomputeListSpan_eq (present : list < tree.size) :
    tree.recomputeListSpan (some list) =
      tree.setSpan (some list) (tree.listHull (tree.spanOf list) (tree.slots (some list))) := by
  obtain ⟨node, found⟩ : ∃ node, tree.get? (some list) = some node :=
    ⟨_, Array.getElem?_eq_getElem present⟩
  have own : tree.spanOf list = node.span := by
    rw [Tree.spanOf, span?, found]
    rfl
  rw [recomputeListSpan, found, own, slots_of_get? found]

theorem widenOver_eq (present : list < tree.size) (inside : child < tree.size) :
    tree.widenOver (some list) (some child) =
      tree.setSpan (some list) ((tree.spanOf list).union (tree.spanOf child)) := by
  rw [widenOver, span?_eq present, span?_eq inside]

/-- Widening goes up one step, unless the node fits its parent. -/
theorem bubbleSpan_eq (linked : tree.parentOf (some child) = some parent)
    (present : parent < tree.size) (inside : child < tree.size) (limit : Nat) :
    tree.bubbleSpan (limit + 1) (some child) =
      if (tree.spanOf child).Fits (tree.spanOf parent) then tree
      else (tree.setSpan (some parent)
        ((tree.spanOf parent).union (tree.spanOf child))).bubbleSpan limit (some parent) := by
  rw [bubbleSpan, linked, span?_eq present, span?_eq inside]
  rfl

theorem bubbleSpan_of_fits (linked : tree.parentOf (some child) = some parent)
    (present : parent < tree.size) (fits : (tree.spanOf child).Fits (tree.spanOf parent))
    (limit : Nat) : tree.bubbleSpan limit (some child) = tree := by
  cases limit with
  | zero => rfl
  | succ limit => rw [bubbleSpan_eq linked present (child_lt linked), if_pos fits]

theorem bubbleSpan_of_root (root : tree.parentOf (some child) = none) (limit : Nat) :
    tree.bubbleSpan limit (some child) = tree := by
  cases limit with
  | zero => rfl
  | succ limit =>
    rw [bubbleSpan, root]
    cases tree.span? (some child) <;> rfl

section Widening

variable (stable : Span.Stable law)

include stable

theorem SpansAre.bubbleSpan (lawful : tree.SpansAre law) (limit : Nat) (handle : Handle) :
    (tree.bubbleSpan limit handle).SpansAre law := by
  induction limit generalizing tree handle with
  | zero => exact lawful
  | succ limit ih =>
    unfold Tree.bubbleSpan
    dsimp only
    split
    · next inner outer below above =>
      split
      · exact lawful
      · exact ih (lawful.setSpan (stable.union (lawful _ _ above) (lawful _ _ below)) _) _
    · exact lawful

theorem SpansAre.widenOver (lawful : tree.SpansAre law) (handle other : Handle) :
    (tree.widenOver handle other).SpansAre law := by
  unfold Tree.widenOver
  split
  · next own theirs first second =>
    exact lawful.setSpan (stable.union (lawful _ _ first) (lawful _ _ second)) _
  · exact lawful

theorem SpansAre.recomputeListSpan (lawful : tree.SpansAre law) (handle : Handle) :
    (tree.recomputeListSpan handle).SpansAre law := by
  unfold Tree.recomputeListSpan
  split
  · next node found =>
    have own : law node.span := lawful handle _ (by rw [span?, found]; rfl)
    exact lawful.setSpan (listHull_of_stable stable own fun handle _ => lawful handle) _
  · exact lawful

theorem SpansAre.refreshIfList (lawful : tree.SpansAre law) (parent : NodeId) (node : Node) :
    (tree.refreshIfList parent node).SpansAre law := by
  unfold Tree.refreshIfList
  split
  · exact lawful.recomputeListSpan stable _
  · exact lawful

theorem SpansAre.detach (lawful : tree.SpansAre law) (owned : tree.Owned) (child : NodeId) :
    (tree.detach (some child)).SpansAre law := by
  obtain ⟨free, relinked, -, -, ⟨-, same⟩ | ⟨previous, node, -, -, same⟩⟩ :=
    owned.upTo.detach child
  · exact same ▸ lawful.of_same relinked.span?
  · exact same ▸ (lawful.of_same relinked.span?).refreshIfList stable previous node

theorem SpansAre.removeAt (lawful : tree.SpansAre law) (owned : tree.Owned) (handle : Handle)
    (position : Nat) : (tree.removeAt handle position).1.SpansAre law := by
  rcases removeAt_cases tree handle position with same | ⟨list, removed, rfl, isList, there, same⟩
  · rwa [same]
  obtain ⟨child, rfl, -, relinked⟩ := owned.unlink_element isList there
  rw [same]
  exact (lawful.of_same relinked.span?).recomputeListSpan stable _

theorem SpansAre.insertElement (lawful : tree.SpansAre law) (owned : tree.Owned)
    (present : child < tree.size)
    (inserted : tree.insertElement list position (some child) = some after) :
    after.SpansAre law := by
  obtain ⟨-, -, placed, fitted, place, -, rfl, fit⟩ := owned.insertElement_steps present inserted
  have lawful : placed.SpansAre law :=
    (lawful.detach stable owned child).of_same place.span?
  refine SpansAre.bubbleSpan stable ?_ _ _
  rw [fit]
  split
  · exact lawful.recomputeListSpan stable _
  · exact lawful.widenOver stable _ _

end Widening

theorem spanOf_eq {span : Span} (found : tree.span? (some child) = some span) :
    tree.spanOf child = span := by
  rw [spanOf, found]
  rfl

/-- Nothing is widened over what counts for nothing. -/
theorem bubbleSpan_of_blank (blank : (tree.spanOf child).isPlaceholder) (limit : Nat) :
    tree.bubbleSpan limit (some child) = tree := by
  cases limit with
  | zero => rfl
  | succ limit =>
    unfold Tree.bubbleSpan
    dsimp only
    split
    · next inner outer below above =>
      rw [spanOf_eq below] at blank
      rw [if_pos (.inl blank)]
    · rfl

/-- What stands for text still does when it is widened. -/
theorem bubbleSpan_solid (ordered : tree.SpansAre Span.Ordered)
    (solid : ¬ (tree.spanOf child).isPlaceholder) (limit : Nat) (handle : Handle) :
    ¬ ((tree.bubbleSpan limit handle).spanOf child).isPlaceholder := by
  induction limit generalizing tree handle with
  | zero => exact solid
  | succ limit ih =>
    unfold Tree.bubbleSpan
    dsimp only
    split
    · next inner outer below above =>
      split
      · exact solid
      have reads := ordered _ _ below
      refine ih (ordered.setSpan (Span.union_ordered (ordered _ _ above) reads) _) ?_ _
      obtain ⟨parent, same⟩ : ∃ parent, tree.parentOf handle = some parent := by
        cases linked : tree.parentOf handle with
        | none => rw [linked] at above; cases above
        | some parent => exact ⟨parent, rfl⟩
      rw [same] at above ⊢
      obtain ⟨node, found, -⟩ := Option.map_eq_some_iff.mp above
      rw [spanOf_setSpan (lt_size_of_get? found)]
      split
      · next here =>
        rw [here, spanOf_eq above] at solid
        rw [Span.union_isPlaceholder reads]
        exact fun both => solid both.1
      · exact solid
    · exact solid

end Tree

end ScriptSyntax
