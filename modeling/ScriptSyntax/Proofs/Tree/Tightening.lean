import ScriptSyntax.Proofs.Tree.Refitting

/-! A list goes exactly around its elements. One element may be loose: its span has just
grown, or it has just come into the list, and the list is still to be widened. -/
namespace ScriptSyntax

namespace Span

variable {a b : Span}

/-- A union that stands for text begins and ends where one of its parts does that stands for
text. -/
theorem union_ends (solid : ¬ (a.union b).isPlaceholder) :
    (¬ a.isPlaceholder ∧ (a.union b).start = a.start ∨
      ¬ b.isPlaceholder ∧ (a.union b).start = b.start) ∧
    (¬ a.isPlaceholder ∧ (a.union b).stop = a.stop ∨
      ¬ b.isPlaceholder ∧ (a.union b).stop = b.stop) := by
  unfold union at solid ⊢
  split at solid
  · next blank =>
    rw [if_pos blank]
    exact ⟨.inl ⟨solid, rfl⟩, .inl ⟨solid, rfl⟩⟩
  next other =>
  rw [if_neg other]
  split at solid
  · next blank =>
    rw [if_pos blank]
    exact ⟨.inr ⟨other, rfl⟩, .inr ⟨other, rfl⟩⟩
  · next own =>
    rw [if_neg own]
    refine ⟨?_, ?_⟩
    · rcases Nat.le_total a.start b.start with less | more
      · exact .inl ⟨own, Nat.min_eq_left less⟩
      · exact .inr ⟨other, Nat.min_eq_right more⟩
    · rcases Nat.le_total a.stop b.stop with less | more
      · exact .inr ⟨other, Nat.max_eq_right less⟩
      · exact .inl ⟨own, Nat.max_eq_left more⟩

/-- So does a hull. -/
theorem hull?_ends {kind : TokenKind} {spans : List Span} {hull : Span}
    (same : Span.hull? kind spans = some hull) (solid : ¬ hull.isPlaceholder) :
    (∃ span ∈ spans, ¬ span.isPlaceholder ∧ span.start = hull.start) ∧
      ∃ span ∈ spans, ¬ span.isPlaceholder ∧ span.stop = hull.stop := by
  have folds : ∀ (rest : List Span) (base : Span),
      ¬ (rest.foldl Span.union base).isPlaceholder →
      (∃ span ∈ base :: rest, ¬ span.isPlaceholder ∧
        span.start = (rest.foldl Span.union base).start) ∧
      ∃ span ∈ base :: rest, ¬ span.isPlaceholder ∧
        span.stop = (rest.foldl Span.union base).stop := by
    intro rest
    induction rest with
    | nil => exact fun base solid => ⟨⟨base, by simp, solid, rfl⟩, base, by simp, solid, rfl⟩
    | cons next rest ih =>
      intro base solid
      obtain ⟨⟨first, begins, counts, start⟩, last, ends, also, stop⟩ := ih (base.union next) solid
      refine ⟨?_, ?_⟩
      · rcases List.mem_cons.mp begins with rfl | member
        · rcases (union_ends counts).1 with ⟨own, same⟩ | ⟨own, same⟩
          · exact ⟨base, by simp, own, same.symm.trans start⟩
          · exact ⟨next, by simp, own, same.symm.trans start⟩
        · exact ⟨first, by simp [member], counts, start⟩
      · rcases List.mem_cons.mp ends with rfl | member
        · rcases (union_ends also).2 with ⟨own, same⟩ | ⟨own, same⟩
          · exact ⟨base, by simp, own, same.symm.trans stop⟩
          · exact ⟨next, by simp, own, same.symm.trans stop⟩
        · exact ⟨last, by simp [member], also, stop⟩
  cases spans with
  | nil => cases same
  | cons first rest =>
    obtain rfl := Option.some.inj same
    have kept {span : Span} (member : span ∈ first.withKind kind :: rest) :
        ∃ other ∈ first :: rest, other.isPlaceholder = span.isPlaceholder ∧
          other.start = span.start ∧ other.stop = span.stop := by
      rcases List.mem_cons.mp member with rfl | inside
      · exact ⟨first, by simp, rfl, rfl, rfl⟩
      · exact ⟨span, by simp [inside], rfl, rfl, rfl⟩
    obtain ⟨⟨begin, begins, counts, start⟩, last, ends, also, stop⟩ := folds rest _ solid
    obtain ⟨one, listed, alike, early, -⟩ := kept begins
    obtain ⟨two, listed', alike', -, late⟩ := kept ends
    exact ⟨⟨one, listed, alike ▸ counts, early.trans start⟩,
      two, listed', alike' ▸ also, late.trans stop⟩

end Span

namespace Tree

variable {tree before after : Tree} {law : Span → Prop} {lax : Prop}
  {spare other : NodeId → Prop} {loose : Handle} {list parent child id : NodeId}

/-- The span of a list with elements begins and ends where those of elements do. -/
theorem listHull_ends {current span : Span} {elements : List Handle} {handle : Handle}
    (solid : ¬ (tree.listHull current elements).isPlaceholder) (member : handle ∈ elements)
    (found : tree.span? handle = some span) :
    (∃ handle ∈ elements, ∃ span, tree.span? handle = some span ∧ ¬ span.isPlaceholder ∧
      span.start = (tree.listHull current elements).start) ∧
    ∃ handle ∈ elements, ∃ span, tree.span? handle = some span ∧ ¬ span.isPlaceholder ∧
      span.stop = (tree.listHull current elements).stop := by
  have listed : span ∈ elements.filterMap tree.span? :=
    List.mem_filterMap.mpr ⟨handle, member, found⟩
  unfold Tree.listHull at solid ⊢
  cases hull : Span.hull? current.kind (elements.filterMap tree.span?) with
  | none =>
    cases same : elements.filterMap tree.span? with
    | nil => simp [same] at listed
    | cons first rest => simp [same, Span.hull?] at hull
  | some whole =>
    rw [hull] at solid
    obtain ⟨⟨first, begins, wide, start⟩, last, ends, long, stop⟩ := Span.hull?_ends hull solid
    obtain ⟨one, inside, here⟩ := List.mem_filterMap.mp begins
    obtain ⟨two, within, there⟩ := List.mem_filterMap.mp ends
    exact ⟨⟨one, inside, first, here, wide, start⟩, two, within, last, there, long, stop⟩

/-- An element of the list that stands for text. -/
structure Counts (tree : Tree) (list id : NodeId) : Prop where
  held : tree.parentOf (some id) = some list
  solid : ¬ (tree.spanOf id).isPlaceholder

theorem spanOf_element (present : list < tree.size) (apart : tree.parentOf (some list) ≠ some list)
    (held : tree.parentOf (some id) = some list) (span : Span) :
    (tree.setSpan (some list) span).spanOf id = tree.spanOf id := by
  rw [spanOf_setSpan present, if_neg fun same : id = list => apart (same ▸ held)]

/-- A new span of the list changes nothing for its elements. -/
theorem counts_setSpan (present : list < tree.size) (apart : tree.parentOf (some list) ≠ some list)
    (span : Span) (id : NodeId) :
    (tree.setSpan (some list) span).Counts list id ↔ tree.Counts list id := by
  have links := (Respanned.setSpan tree (some list) span).parentOf (some id)
  constructor
  · rintro ⟨below, solid⟩
    rw [links] at below
    exact ⟨below, spanOf_element present apart below span ▸ solid⟩
  · rintro ⟨below, solid⟩
    exact ⟨links.trans below, (spanOf_element present apart below span).symm ▸ solid⟩

/-- No element of the list is a list. -/
def Flat (tree : Tree) (list : NodeId) : Prop :=
  ∀ id, tree.parentOf (some id) = some list → tree.family? (some id) = none

/-- A list that stands for text begins and ends where elements do that count, and covers all
of these, but for a loose one. In a lax view those of no width may be left out. A list that
stands for no text has the same place as each of its elements that count, and these are
spare. -/
structure Hugs (lax : Prop) (spare : NodeId → Prop) (loose : Handle) (tree : Tree)
    (list : NodeId) : Prop where
  start : ¬ (tree.spanOf list).isPlaceholder → ∃ id, tree.Counts list id ∧
    ((tree.spanOf id).start = (tree.spanOf list).start ∨
      loose = some id ∧ (tree.spanOf id).start ≤ (tree.spanOf list).start)
  stop : ¬ (tree.spanOf list).isPlaceholder → ∃ id, tree.Counts list id ∧
    ((tree.spanOf id).stop = (tree.spanOf list).stop ∨
      loose = some id ∧ (tree.spanOf list).stop ≤ (tree.spanOf id).stop)
  covers : ¬ (tree.spanOf list).isPlaceholder → ∀ id, tree.Counts list id → loose ≠ some id →
    ¬ (lax ∧ (tree.spanOf id).isEmpty) → (tree.spanOf list).Covers (tree.spanOf id)
  blank : (tree.spanOf list).isPlaceholder → ∀ id, tree.Counts list id → loose ≠ some id →
    spare id ∧ (tree.spanOf id).start = (tree.spanOf list).start ∧
      (tree.spanOf id).stop = (tree.spanOf list).stop

/-- The law holds of every span, and the list, if it is a flat one with elements, hugs them. -/
structure Taut (law : Span → Prop) (lax : Prop) (spare : NodeId → Prop) (loose : Handle)
    (tree : Tree) (list : NodeId) : Prop where
  lawful : tree.SpansAre law
  hugs : (tree.family? (some list)).isSome → tree.Flat list →
    (∃ id, tree.parentOf (some id) = some list) → Hugs lax spare loose tree list

/-- Nothing has changed that a flat list with elements depends on: neither the list, nor which
nodes are its elements, nor their spans. -/
structure Undisturbed (before after : Tree) (list : NodeId) : Prop where
  elements : ∀ id, after.parentOf (some id) = some list ↔ before.parentOf (some id) = some list
  families : ∀ id, before.parentOf (some id) = some list →
    after.family? (some list) = before.family? (some list) ∧
      after.family? (some id) = before.family? (some id)
  spans : before.Flat list → ∀ id, before.parentOf (some id) = some list →
    after.spanOf list = before.spanOf list ∧ after.spanOf id = before.spanOf id

namespace Undisturbed

theorem of_respanned (respanned : Respanned before after)
    (spans : before.Flat list → ∀ id, before.parentOf (some id) = some list →
      after.spanOf list = before.spanOf list ∧ after.spanOf id = before.spanOf id) :
    Undisturbed before after list where
  elements id := by rw [respanned.parentOf]
  families _ _ := ⟨respanned.family? _, respanned.family? _⟩
  spans := spans

theorem setSpan (present : parent < tree.size) (elsewhere : parent ≠ list)
    (outside : tree.Flat list → tree.parentOf (some parent) ≠ some list) (span : Span) :
    Undisturbed tree (tree.setSpan (some parent) span) list := by
  refine of_respanned (.setSpan ..) fun flat id held => ⟨?_, ?_⟩
  · rw [spanOf_setSpan present, if_neg elsewhere.symm]
  · rw [spanOf_setSpan present, if_neg fun same : id = parent => outside flat (same ▸ held)]

theorem relinked (relinked : Relinked before after child none)
    (elsewhere : before.parentOf (some child) ≠ some list) : Undisturbed before after list where
  elements id := by
    rw [relinked.parentOf]
    split
    · next same => exact iff_of_false nofun (same ▸ elsewhere)
    · rfl
  families _ _ := ⟨relinked.family? _, relinked.family? _⟩
  spans _ _ _ := ⟨spanOf_congr (relinked.span? _), spanOf_congr (relinked.span? _)⟩

theorem placed {old : Handle} (placed : Placed before after parent child old)
    (elsewhere : parent ≠ list) (free : before.parentOf (some child) = none)
    (replaces : ∀ id, old = some id → before.parentOf (some id) ≠ some list) :
    Undisturbed before after list where
  elements id := by
    rw [placed.parentOf]
    split
    · next gone => exact iff_of_false nofun (replaces id gone)
    split
    · next same =>
      rw [same, free]
      exact iff_of_false (fun held => elsewhere (Option.some.inj held)) nofun
    · rfl
  families _ _ := ⟨placed.family? _, placed.family? _⟩
  spans _ _ _ := ⟨spanOf_congr (placed.span? _), spanOf_congr (placed.span? _)⟩

end Undisturbed

namespace Hugs

/-- What the list hugs it still does if it has kept its span, and its elements theirs but for the
one that is loose from then on. -/
theorem carry {next : Handle} (hugs : Hugs lax spare loose before list)
    (own : after.spanOf list = before.spanOf list)
    (kept : ∀ id, before.Counts list id → after.Counts list id ∧
      (after.spanOf id = before.spanOf id ∧ (loose = some id → next = some id) ∨
        next = some id ∧ (after.spanOf id).Covers (before.spanOf id)))
    (old : ∀ id, after.Counts list id → next ≠ some id →
      before.Counts list id ∧ loose ≠ some id ∧ after.spanOf id = before.spanOf id) :
    Hugs lax spare next after list := by
  refine ⟨fun solid => ?_, fun solid => ?_, fun solid id counts firm => ?_,
    fun blank id counts firm => ?_⟩
  · rw [own] at solid ⊢
    obtain ⟨id, counts, ends⟩ := hugs.start solid
    obtain ⟨still, ⟨same, passes⟩ | ⟨now, wide⟩⟩ := kept id counts
    · exact ⟨id, still, same.symm ▸ ends.imp_right fun early => ⟨passes early.1, early.2⟩⟩
    · refine ⟨id, still, .inr ⟨now, Nat.le_trans wide.1 ?_⟩⟩
      exact ends.elim Nat.le_of_eq And.right
  · rw [own] at solid ⊢
    obtain ⟨id, counts, ends⟩ := hugs.stop solid
    obtain ⟨still, ⟨same, passes⟩ | ⟨now, wide⟩⟩ := kept id counts
    · exact ⟨id, still, same.symm ▸ ends.imp_right fun late => ⟨passes late.1, late.2⟩⟩
    · refine ⟨id, still, .inr ⟨now, Nat.le_trans ?_ wide.2⟩⟩
      exact ends.elim (Nat.le_of_eq ·.symm) And.right
  · obtain ⟨before, firmly, same⟩ := old id counts firm
    rw [own] at solid ⊢
    rw [same]
    exact hugs.covers solid id before firmly
  · obtain ⟨before, firmly, same⟩ := old id counts firm
    rw [own] at blank ⊢
    rw [same]
    exact hugs.blank blank id before firmly

theorem loosen (hugs : Hugs lax spare none tree list) (loose : Handle) :
    Hugs lax spare loose tree list :=
  hugs.carry rfl (fun _ counts => ⟨counts, .inl ⟨rfl, nofun⟩⟩)
    fun _ counts _ => ⟨counts, nofun, rfl⟩

/-- What is no element is not loose. -/
theorem firm (hugs : Hugs lax spare (some child) tree list)
    (elsewhere : tree.parentOf (some child) ≠ some list) : Hugs lax spare none tree list := by
  have other (id : NodeId) (counts : tree.Counts list id) : some child ≠ some id := by
    rintro ⟨⟩
    exact elsewhere counts.held
  exact hugs.carry rfl (fun id counts => ⟨counts, .inl ⟨rfl, (absurd · (other id counts))⟩⟩)
    fun id counts _ => ⟨counts, other id counts, rfl⟩

/-- Nor is an element that fits the list. -/
theorem settle (hugs : Hugs lax spare (some child) tree list)
    (ordered : (tree.spanOf child).Ordered)
    (fits : (tree.spanOf child).Fits (tree.spanOf list)) (also : spare child) :
    Hugs lax spare none tree list := by
  have covered (counts : tree.Counts list child) :=
    fits.resolve_left counts.solid
  refine ⟨fun solid => ?_, fun solid => ?_, fun solid id counts _ => ?_,
    fun blank id counts _ => ?_⟩
  · obtain ⟨id, counts, ends | ⟨own, early⟩⟩ := hugs.start solid
    · exact ⟨id, counts, .inl ends⟩
    · obtain rfl := Option.some.inj own
      exact ⟨child, counts, .inl (Nat.le_antisymm early (covered counts).1)⟩
  · obtain ⟨id, counts, ends | ⟨own, late⟩⟩ := hugs.stop solid
    · exact ⟨id, counts, .inl ends⟩
    · obtain rfl := Option.some.inj own
      exact ⟨child, counts, .inl (Nat.le_antisymm (covered counts).2 late)⟩
  · by_cases same : child = id
    · exact fun _ => same ▸ covered (same ▸ counts)
    · exact hugs.covers solid id counts fun here => same (Option.some.inj here)
  · by_cases same : child = id
    · subst same
      have width := (Span.isPlaceholder_iff.mp blank).1
      have inner := covered counts
      unfold Span.Covers at inner
      unfold Span.Ordered at ordered
      exact ⟨also, by omega, by omega⟩
    · exact hugs.blank blank id counts fun here => same (Option.some.inj here)

/-- An element has grown. -/
theorem grow (hugs : Hugs lax spare none tree list) (present : child < tree.size)
    (apart : child ≠ list) {span : Span}
    (wide : ¬ (tree.spanOf child).isPlaceholder →
      ¬ span.isPlaceholder ∧ span.Covers (tree.spanOf child)) :
    Hugs lax spare (some child) (tree.setSpan (some child) span) list := by
  have own : (tree.setSpan (some child) span).spanOf list = tree.spanOf list := by
    rw [spanOf_setSpan present, if_neg apart.symm]
  have kept {id : NodeId} (other : child ≠ id) :
      (tree.setSpan (some child) span).spanOf id = tree.spanOf id := by
    rw [spanOf_setSpan present, if_neg other.symm]
  have links (id : NodeId) : (tree.setSpan (some child) span).parentOf (some id) =
      tree.parentOf (some id) := (Respanned.setSpan tree (some child) span).parentOf _
  have grown : (tree.setSpan (some child) span).spanOf child = span := by
    rw [spanOf_setSpan present, if_pos rfl]
  have still {id : NodeId} (counts : tree.Counts list id) :
      (tree.setSpan (some child) span).Counts list id := by
    refine ⟨(links id).trans counts.held, ?_⟩
    by_cases same : child = id
    · subst same
      exact grown.symm ▸ (wide counts.solid).1
    · exact (kept same).symm ▸ counts.solid
  have before {id : NodeId} (counts : (tree.setSpan (some child) span).Counts list id)
      (other : child ≠ id) : tree.Counts list id :=
    ⟨(links id).symm.trans counts.held, kept other ▸ counts.solid⟩
  refine hugs.carry own (fun id counts => ⟨still counts, ?_⟩) fun id counts firm => ?_
  · by_cases same : child = id
    · subst same
      exact .inr ⟨rfl, grown.symm ▸ (wide counts.solid).2⟩
    · exact .inl ⟨kept same, nofun⟩
  · have other : child ≠ id := fun same => firm (congrArg some same)
    exact ⟨before counts other, nofun, kept other⟩

/-- The list is widened over its loose element. If it takes the place of that one, the others
that count must be left out of the view. -/
theorem widen (hugs : Hugs lax spare (some child) tree list) (present : list < tree.size)
    (held : tree.parentOf (some child) = some list)
    (apart : tree.parentOf (some list) ≠ some list) (ordered : (tree.spanOf child).Ordered)
    (alone : ∀ id, tree.Counts list id → id ≠ child → spare id → lax) :
    Hugs lax spare none (tree.setSpan (some list) ((tree.spanOf list).union (tree.spanOf child)))
      list := by
  let span := (tree.spanOf list).union (tree.spanOf child)
  have own : (tree.setSpan (some list) span).spanOf list = span := by
    rw [spanOf_setSpan present, if_pos rfl]
  have kept {id : NodeId} (below : tree.parentOf (some id) = some list) :=
    spanOf_element present apart below span
  have same := counts_setSpan present apart span
  have width : span.isPlaceholder ↔ _ := Span.union_isPlaceholder ordered
  change Hugs lax spare none (tree.setSpan (some list) span) list
  refine ⟨fun solid => ?_, fun solid => ?_, fun solid id counts _ => ?_,
    fun blank id counts _ => ?_⟩
  · rw [own] at solid ⊢
    rcases (Span.union_ends solid).1 with ⟨wide, begins⟩ | ⟨wide, begins⟩
    · obtain ⟨id, counts, ends⟩ := hugs.start wide
      refine ⟨id, (same id).mpr counts, .inl ?_⟩
      rw [kept counts.held]
      rcases ends with ends | ⟨loose, early⟩
      · exact ends.trans begins.symm
      · obtain rfl := Option.some.inj loose
        exact Nat.le_antisymm (Nat.le_trans early (Nat.le_of_eq begins.symm))
          ((Span.fits_union_right ..).resolve_left counts.solid).1
    · exact ⟨child, (same child).mpr ⟨held, wide⟩, .inl ((kept held).symm ▸ begins.symm)⟩
  · rw [own] at solid ⊢
    rcases (Span.union_ends solid).2 with ⟨wide, ends⟩ | ⟨wide, ends⟩
    · obtain ⟨id, counts, reach⟩ := hugs.stop wide
      refine ⟨id, (same id).mpr counts, .inl ?_⟩
      rw [kept counts.held]
      rcases reach with reach | ⟨loose, late⟩
      · exact reach.trans ends.symm
      · obtain rfl := Option.some.inj loose
        exact Nat.le_antisymm ((Span.fits_union_right ..).resolve_left counts.solid).2
          (Nat.le_trans (Nat.le_of_eq ends) late)
    · exact ⟨child, (same child).mpr ⟨held, wide⟩, .inl ((kept held).symm ▸ ends.symm)⟩
  · have counts := (same id).mp counts
    rw [own, kept counts.held]
    intro seen
    by_cases here : child = id
    · exact here ▸ (Span.fits_union_right ..).resolve_left (here ▸ counts.solid)
    have firm : some child ≠ some id := fun again => here (Option.some.inj again)
    by_cases none : (tree.spanOf list).isPlaceholder
    · obtain ⟨also, start, stop⟩ := hugs.blank none id counts firm
      refine absurd ⟨alone id counts (Ne.symm here) also, ?_⟩ seen
      rw [Span.isEmpty, start, stop]
      exact beq_iff_eq.mpr (Span.isPlaceholder_iff.mp none).1
    · exact (Span.Fits.union (.inr (hugs.covers none id counts firm seen)) none _).resolve_left
        counts.solid
  · have counts := (same id).mp counts
    rw [own] at blank ⊢
    obtain ⟨none, empty⟩ := width.mp blank
    have here : some child ≠ some id := by
      rintro ⟨⟩
      exact counts.solid empty
    have unchanged : span = tree.spanOf list := if_pos empty
    rw [kept counts.held, unchanged]
    exact hugs.blank none id counts here

/-- A list has been given the span of its elements. -/
theorem recompute (present : list < tree.size) (apart : tree.parentOf (some list) ≠ some list)
    (own : ∀ child, some child ∈ tree.slots (some list) ↔ tree.parentOf (some child) = some list)
    (reads : tree.SpansAre Span.Ordered) (held : tree.parentOf (some child) = some list) :
    Hugs lax spare none (tree.recomputeListSpan (some list)) list := by
  rw [recomputeListSpan_eq present]
  let hull := tree.listHull (tree.spanOf list) (tree.slots (some list))
  have taken : (tree.setSpan (some list) hull).spanOf list = hull := by
    rw [spanOf_setSpan present, if_pos rfl]
  have kept {id : NodeId} (below : tree.parentOf (some id) = some list) :=
    spanOf_element present apart below hull
  have same := counts_setSpan present apart hull
  have fits {id : NodeId} (below : tree.parentOf (some id) = some list) :
      (tree.spanOf id).Fits hull ∧ (hull.isPlaceholder → (tree.spanOf id).isPlaceholder) :=
    listHull_fits reads _ ((own id).mpr below) (span?_eq (child_lt below))
  have counted {handle : Handle} {span : Span} (member : handle ∈ tree.slots (some list))
      (found : tree.span? handle = some span) (solid : ¬ span.isPlaceholder) :
      ∃ id, (tree.setSpan (some list) hull).Counts list id ∧
        (tree.setSpan (some list) hull).spanOf id = span := by
    cases handle with
    | none => cases found
    | some id =>
      have below := (own id).mp member
      rw [← spanOf_eq found] at solid ⊢
      exact ⟨id, (same id).mpr ⟨below, solid⟩, kept below⟩
  change Hugs lax spare none (tree.setSpan (some list) hull) list
  have ends (solid : ¬ hull.isPlaceholder) := listHull_ends solid ((own child).mpr held)
    (span?_eq (child_lt held))
  refine ⟨fun solid => ?_, fun solid => ?_, fun solid id counts _ _ => ?_,
    fun blank id counts _ => ?_⟩
  · rw [taken] at solid ⊢
    obtain ⟨handle, member, span, found, wide, begins⟩ := (ends solid).1
    obtain ⟨id, counts, alike⟩ := counted member found wide
    exact ⟨id, counts, .inl (alike ▸ begins)⟩
  · rw [taken] at solid ⊢
    obtain ⟨handle, member, span, found, wide, ends⟩ := (ends solid).2
    obtain ⟨id, counts, alike⟩ := counted member found wide
    exact ⟨id, counts, .inl (alike ▸ ends)⟩
  · have counts := (same id).mp counts
    rw [taken, kept counts.held]
    exact (fits counts.held).1.resolve_left counts.solid
  · have counts := (same id).mp counts
    rw [taken] at blank
    exact absurd ((fits counts.held).2 blank) counts.solid

theorem congr (hugs : Hugs lax spare loose before list)
    (own : after.spanOf list = before.spanOf list)
    (elements : ∀ id, after.parentOf (some id) = some list ↔
      before.parentOf (some id) = some list)
    (spans : ∀ id, before.parentOf (some id) = some list → after.spanOf id = before.spanOf id) :
    Hugs lax spare loose after list := by
  refine hugs.carry own (fun id counts => ?_) fun id counts firm => ?_
  · have same := spans id counts.held
    exact ⟨⟨(elements id).mpr counts.held, same.symm ▸ counts.solid⟩, .inl ⟨same, fun own => own⟩⟩
  · have held := (elements id).mp counts.held
    exact ⟨⟨held, spans id held ▸ counts.solid⟩, firm, spans id held⟩

end Hugs

/-- The spare nodes stand one above the other, unless the view is lax. -/
structure Lined (lax : Prop) (spare : NodeId → Prop) (tree : Tree) : Prop where
  climbs : ∀ id parent, tree.parentOf (some id) = some parent → spare id → spare parent
  single : ∀ first second parent, tree.parentOf (some first) = some parent →
    tree.parentOf (some second) = some parent → spare first → spare second → first = second ∨ lax

theorem Acyclic.lined (acyclic : tree.Acyclic) (lax : Prop) (id : NodeId) :
    Lined lax (fun other => lax ∨ tree.Upward id other) tree where
  climbs below above linked := Or.imp_right fun upward => upward.of_parent linked
  single first second parent one two := by
    rintro (free | up) (also | too)
    · exact .inr free
    · exact .inr free
    · exact .inr also
    · exact .inl ((acyclic.line id).single first second parent one two up too)

theorem Lined.respanned (lined : Lined lax spare before) (respanned : Respanned before after) :
    Lined lax spare after where
  climbs id parent linked := lined.climbs id parent (respanned.parentOf _ ▸ linked)
  single first second parent one two :=
    lined.single first second parent (respanned.parentOf _ ▸ one) (respanned.parentOf _ ▸ two)

namespace Taut

theorem undisturbed (taut : Taut law lax spare loose before list)
    (undisturbed : Undisturbed before after list) (lawful : after.SpansAre law) :
    Taut law lax spare loose after list where
  lawful := lawful
  hugs isList flat some := by
    obtain ⟨id, held⟩ := some
    have below := (undisturbed.elements id).mp held
    have flat : before.Flat list := fun other member =>
      (undisturbed.families other member).2 ▸ flat other ((undisturbed.elements other).mpr member)
    refine (taut.hugs ((undisturbed.families id below).1 ▸ isList) flat ⟨id, below⟩).congr
      (undisturbed.spans flat id below).1 undisturbed.elements ?_
    exact fun other member => (undisturbed.spans flat other member).2

/-- What is no list hugs nothing. -/
theorem of_fixed (lawful : tree.SpansAre law) (fixed : tree.family? (some list) = none) :
    Taut law lax spare loose tree list where
  lawful := lawful
  hugs isList := by
    rw [fixed] at isList
    cases isList

theorem mono (taut : Taut law lax spare loose tree list) (wider : ∀ id, spare id → other id) :
    Taut law lax other loose tree list where
  lawful := taut.lawful
  hugs isList flat some :=
    have hugs := taut.hugs isList flat some
    { hugs with
      blank blank id counts firm :=
        (hugs.blank blank id counts firm).imp_left (wider id) }

theorem loosen (taut : Taut law lax spare none tree list) (loose : Handle) :
    Taut law lax spare loose tree list where
  lawful := taut.lawful
  hugs isList flat some := (taut.hugs isList flat some).loosen loose

theorem firm (taut : Taut law lax spare (some child) tree list)
    (elsewhere : tree.parentOf (some child) ≠ some list) :
    Taut law lax spare none tree list where
  lawful := taut.lawful
  hugs isList flat some := (taut.hugs isList flat some).firm elsewhere

/-- What has been given a new span is loose, unless it is no element. -/
theorem setSpan (taut : Taut law lax spare none tree list) (present : child < tree.size)
    (apart : child ≠ list) {span : Span} (holds : law span)
    (wide : tree.Flat list → tree.parentOf (some child) = some list →
      ¬ (tree.spanOf child).isPlaceholder →
      ¬ span.isPlaceholder ∧ span.Covers (tree.spanOf child)) :
    Taut law lax spare (some child) (tree.setSpan (some child) span) list := by
  have respanned := Respanned.setSpan tree (some child) span
  have lawful := taut.lawful.setSpan holds (some child)
  by_cases held : tree.parentOf (some child) = some list
  · refine ⟨lawful, fun isList flat _ => ?_⟩
    have flat : tree.Flat list := fun id below => by
      rw [← respanned.family?]
      exact flat id ((respanned.parentOf _).trans below)
    exact (taut.hugs (respanned.family? _ ▸ isList) flat ⟨child, held⟩).grow present apart
      (wide flat held)
  · exact (taut.undisturbed (.setSpan present apart (fun _ => held) span) lawful).loosen _

/-- Giving another list a new span does nothing to a flat one. -/
theorem setSpan_list (taut : Taut law lax spare loose tree list)
    (isList : (tree.family? (some parent)).isSome) (elsewhere : parent ≠ list) {span : Span}
    (holds : law span) : Taut law lax spare loose (tree.setSpan (some parent) span) list := by
  refine taut.undisturbed (.setSpan (lt_size_of_family? isList) elsewhere ?_ span)
    (taut.lawful.setSpan holds _)
  intro flat held
  rw [flat parent held] at isList
  cases isList

section Widening

variable (stable : Span.Stable law) (ordered : ∀ {span}, law span → span.Ordered)

include stable ordered

/-- Widening the spans above a loose node leaves none loose. -/
theorem bubbleSpan {limit : Nat} (taut : Taut law lax spare (some child) tree list)
    (owned : tree.Owned) (acyclic : tree.Acyclic) (lined : Lined lax spare tree)
    (starts : spare child)
    (depth : ∀ nodes : List NodeId, nodes.Nodup → (∀ above ∈ nodes, tree.Above above child) →
      nodes.length ≤ limit) :
    Taut law lax spare none (tree.bubbleSpan limit (some child)) list := by
  -- each step hands the looseness on to the parent, which then has its other elements in view
  induction limit generalizing tree child with
  | zero =>
    refine taut.firm fun linked => ?_
    have bound := depth [list] (by simp) (by simpa using .of_parent linked)
    exact Nat.not_succ_le_zero 0 bound
  | succ limit ih =>
    cases linked : tree.parentOf (some child) with
    | none =>
      rw [bubbleSpan_of_root linked]
      exact taut.firm (by rw [linked]; nofun)
    | some parent =>
      have present := owned.parent_lt linked
      have holds := taut.lawful.spanOf (child_lt linked)
      rw [bubbleSpan_eq linked present (child_lt linked)]
      split
      · next fits =>
        refine ⟨taut.lawful, fun isList flat some => ?_⟩
        have hugs := taut.hugs isList flat some
        by_cases own : parent = list
        · exact hugs.settle (ordered holds) (own ▸ fits) starts
        · exact hugs.firm (by rw [linked]; exact fun same => own (Option.some.inj same))
      have respanned := Respanned.setSpan tree (some parent)
        ((tree.spanOf parent).union (tree.spanOf child))
      have union := stable.union (taut.lawful.spanOf present) holds
      have widened : Taut law lax spare (some parent)
          (tree.setSpan (some parent) ((tree.spanOf parent).union (tree.spanOf child))) list := by
        by_cases own : parent = list
        · subst own
          refine ⟨taut.lawful.setSpan union _, fun isList flat _ => ?_⟩
          have flat : tree.Flat parent := fun id below => by
            rw [← respanned.family?]
            exact flat id ((respanned.parentOf _).trans below)
          have hugs := taut.hugs (respanned.family? _ ▸ isList) flat ⟨child, linked⟩
          refine (hugs.widen present linked (acyclic.not_self parent) (ordered holds) ?_).loosen _
          exact fun id counts other also =>
            (lined.single id child parent counts.held linked also starts).resolve_left other
        · refine (taut.firm ?_).setSpan present own union fun _ _ solid => ⟨?_, ?_⟩
          · rw [linked]
            exact fun same => own (Option.some.inj same)
          · rw [Span.union_isPlaceholder (ordered holds)]
            exact fun both => solid both.1
          · exact (Span.fits_union_left ..).resolve_left solid
      refine ih widened (owned.respanned respanned) (acyclic.respanned respanned)
        (lined.respanned respanned) (lined.climbs child parent linked starts) ?_
      exact fun nodes distinct all => acyclic.fewer_above linked depth nodes distinct
        fun above member => (all above member).mono fun _ _ held => respanned.parentOf _ ▸ held

/-- Of the elements of a list only the one on the way up is spare, unless the view is lax. -/
theorem widenAncestors
    (taut : Taut law lax (fun id => lax ∨ tree.Upward child id) (some child) tree list)
    (owned : tree.Owned) (acyclic : tree.Acyclic) (shallow : tree.ShallowAt child) :
    Taut law lax (fun id => lax ∨ tree.Upward child id) none (tree.widenAncestors (some child))
      list :=
  taut.bubbleSpan stable ordered owned acyclic (acyclic.lined lax child) (.inr (.inl rfl)) shallow

/-- A list that has been given the span of its elements is taut. -/
theorem of_recompute {fresh filled : Nat} (lawful : tree.SpansAre law)
    (owned : tree.OwnedUpTo fresh filled) (isList : (tree.family? (some list)).isSome)
    (apart : tree.parentOf (some list) ≠ some list) :
    Taut law lax spare none (tree.recomputeListSpan (some list)) list where
  lawful := lawful.recomputeListSpan stable _
  hugs _ _ some := by
    obtain ⟨id, held⟩ := some
    rw [(Respanned.recomputeListSpan tree _).parentOf] at held
    exact .recompute (lt_size_of_family? isList) apart (fun _ => owned.mem_slots_iff isList)
      (lawful.imp ordered) held

omit ordered in
theorem recompute_other (taut : Taut law lax spare loose tree list)
    (isList : (tree.family? (some parent)).isSome) (elsewhere : parent ≠ list) :
    Taut law lax spare loose (tree.recomputeListSpan (some parent)) list := by
  have present := lt_size_of_family? isList
  rw [recomputeListSpan_eq present]
  exact taut.setSpan_list isList elsewhere (listHull_of_stable stable
    (taut.lawful.spanOf present) fun handle _ => taut.lawful handle)

/-- A node that is a list is brought up to date, with its slots and parents in step. -/
theorem refreshIfList {node : Node} {fresh filled : Nat} (lawful : tree.SpansAre law)
    (owned : tree.OwnedUpTo fresh filled) (apart : tree.parentOf (some list) ≠ some list)
    (alike : tree.family? (some parent) = node.form.family?)
    (other : parent ≠ list → Taut law lax spare none tree list) :
    Taut law lax spare none (tree.refreshIfList parent node) list := by
  unfold Tree.refreshIfList Node.isList Form.isList
  rw [← alike]
  by_cases own : parent = list
  · subst own
    split
    · next isList => exact of_recompute stable ordered lawful owned isList apart
    · next fixed => exact ⟨lawful, fun isList => absurd isList fixed⟩
  · split
    · next isList => exact (other own).recompute_other stable isList own
    · exact other own

/-- A child leaves the slot it is in. -/
theorem detach {fresh filled : Nat} (taut : Taut law lax spare none tree list)
    (owned : tree.OwnedUpTo fresh filled) (apart : tree.parentOf (some list) ≠ some list)
    (child : NodeId) : Taut law lax spare none (tree.detach (some child)) list := by
  obtain ⟨free, relinked, still, -, ⟨root, same⟩ | ⟨previous, node, held, found, same⟩⟩ :=
    owned.detach child
  · rw [same]
    exact taut.undisturbed (.relinked relinked (by rw [root]; nofun))
      (taut.lawful.of_same relinked.span?)
  · have lawful := taut.lawful.of_same relinked.span?
    rw [same]
    refine refreshIfList stable ordered lawful still
      (fun own => apart (relinked.links _ _ own)) ?_
      fun elsewhere => taut.undisturbed (.relinked relinked ?_) lawful
    · rw [relinked.family?, family?_of_get? found]
    · rw [held]
      exact fun own => elsewhere (Option.some.inj own)

end Widening

end Taut

end Tree

end ScriptSyntax
