import ScriptSyntax.Proofs.Tree.Fitting
import ScriptSyntax.Tree.Walk
import Mathlib.Data.List.Nodup
import Mathlib.Data.List.ReduceOption

/-! The order in which a walk meets the nodes of a tree: each before the nodes in its slots
and again after them. The record of a traversal is balanced; in a tree without circles it
has every node once, and just those nodes above which no answer turned it away. -/
namespace ScriptSyntax

/-- A node is entered before its children, with an answer that tells whether these are
visited, and left after them. -/
inductive Event where
  | enter (id : NodeId) (descends : Bool)
  | leave (id : NodeId)
  deriving DecidableEq, Repr

namespace Event

def entered? : Event → Option NodeId
  | enter id _ => some id
  | leave _ => none

def left? : Event → Option NodeId
  | enter .. => none
  | leave id => some id

/-- The nodes that are entered, in order. -/
def enteredIn (events : List Event) : List NodeId := events.filterMap entered?

/-- The nodes that are left, in order. -/
def leftIn (events : List Event) : List NodeId := events.filterMap left?

/-- Nodes are entered and left in pairs, and each pair lies inside another or beside it. -/
inductive Balanced : List Event → Prop where
  | nil : Balanced []
  | pair {inner later : List Event} (id : NodeId) (descends : Bool) (inside : Balanced inner)
      (behind : Balanced later) : Balanced (enter id descends :: inner ++ leave id :: later)

variable {events inner later : List Event} {id : NodeId} {descends : Bool}

@[simp] theorem enteredIn_nil : enteredIn [] = [] := rfl

@[simp] theorem enteredIn_enter (id : NodeId) (descends : Bool) (events : List Event) :
    enteredIn (enter id descends :: events) = id :: enteredIn events := rfl

@[simp] theorem enteredIn_leave (id : NodeId) (events : List Event) :
    enteredIn (leave id :: events) = enteredIn events := rfl

@[simp] theorem enteredIn_append (events others : List Event) :
    enteredIn (events ++ others) = enteredIn events ++ enteredIn others :=
  List.filterMap_append

/-- A node is entered before what lies inside its pair, and that before what is behind. -/
theorem enteredIn_pair (id : NodeId) (descends : Bool) (inner later : List Event) :
    enteredIn (enter id descends :: inner ++ leave id :: later) =
      id :: (enteredIn inner ++ enteredIn later) := by
  rw [List.cons_append, enteredIn_enter, enteredIn_append, enteredIn_leave]

theorem enteredIn_alone (id : NodeId) (descends : Bool) (inner : List Event) :
    enteredIn (enter id descends :: inner ++ [leave id]) = id :: enteredIn inner := by
  rw [enteredIn_pair, enteredIn_nil, List.append_nil]

theorem mem_enteredIn_pair {other : NodeId} :
    other ∈ enteredIn (enter id descends :: inner ++ leave id :: later) ↔
      other = id ∨ other ∈ enteredIn inner ∨ other ∈ enteredIn later := by
  rw [enteredIn_pair, List.mem_cons, List.mem_append]

theorem mem_enteredIn : id ∈ enteredIn events ↔ ∃ descends, enter id descends ∈ events := by
  rw [enteredIn, List.mem_filterMap]
  constructor
  · rintro ⟨event, member, same⟩
    cases event with
    | enter other descends =>
      obtain rfl := Option.some.inj same
      exact ⟨descends, member⟩
    | leave other => cases same
  · rintro ⟨descends, member⟩
    exact ⟨_, member, rfl⟩

/-- Every node is left as often as it is entered. -/
theorem Balanced.left_perm (balanced : Balanced events) :
    (leftIn events).Perm (enteredIn events) := by
  induction balanced with
  | nil => exact .nil
  | @pair inner later id descends _ _ inside behind =>
    have left : leftIn (enter id descends :: inner ++ leave id :: later) =
        leftIn inner ++ id :: leftIn later := List.filterMap_append
    rw [left, enteredIn_pair]
    exact List.perm_middle.trans ((inside.append behind).cons id)

/-- A node that is entered once is answered once. -/
theorem answer_unique (once : (enteredIn events).Nodup) {other : Bool}
    (first : enter id descends ∈ events) (second : enter id other ∈ events) :
    descends = other := by
  induction events with
  | nil => cases first
  | cons event rest ih =>
    cases event with
    | leave left =>
      exact ih once (List.mem_of_ne_of_mem (by simp) first) (List.mem_of_ne_of_mem (by simp) second)
    | enter top answer =>
      obtain ⟨fresh, distinct⟩ := List.nodup_cons.mp once
      have apart {answer : Bool} (again : enter id answer ∈ rest) : top ≠ id := by
        rintro rfl
        exact fresh (mem_enteredIn.mpr ⟨_, again⟩)
      rcases List.mem_cons.mp first with here | behind <;>
        rcases List.mem_cons.mp second with there | beyond
      · cases here
        cases there
        rfl
      · cases here
        exact absurd rfl (apart beyond)
      · cases there
        exact absurd rfl (apart behind)
      · exact ih distinct behind beyond

end Event

open Event

namespace Tree

/-- The record of a traversal of a row of slots and all that is below them. An empty slot
is passed over. -/
inductive Traverses (tree : Tree) : List Handle → List Event → Prop where
  | done : Traverses tree [] []
  | absent {row : List Handle} {events : List Event} (later : Traverses tree row events) :
      Traverses tree (none :: row) events
  | skip {id : NodeId} {row : List Handle} {events : List Event} (present : id < tree.size)
      (later : Traverses tree row events) :
      Traverses tree (some id :: row) (.enter id false :: .leave id :: events)
  | descend {id : NodeId} {row : List Handle} {inner events : List Event}
      (present : id < tree.size) (below : Traverses tree (tree.slots (some id)) inner)
      (later : Traverses tree row events) :
      Traverses tree (some id :: row) (.enter id true :: inner ++ .leave id :: events)

variable {tree : Tree} {id above root : NodeId} {row others : List Handle}
  {events otherEvents : List Event} {descends : Bool}

theorem children_eq (tree : Tree) (handle : Handle) :
    tree.children handle = (tree.slots handle).reduceOption := by
  unfold children slots
  cases tree.get? handle <;> rfl

/-- No node is at or below two of these nodes. -/
def Apart (tree : Tree) (nodes : List NodeId) : Prop :=
  nodes.Pairwise fun first second => ∀ id, tree.Upward id first → ¬ tree.Upward id second

theorem apart_singleton (id : NodeId) : tree.Apart [id] := List.pairwise_singleton _ _

theorem Owned.slots_nodup (owned : tree.Owned) (id : NodeId) :
    (tree.slots (some id)).reduceOption.Nodup := by
  rw [List.nodup_iff_count_le_one]
  intro child
  have count : (tree.slots (some id)).reduceOption.count child =
      (tree.slots (some id)).count (some child) := List.count_filterMap
  rw [count, owned.held]
  split <;> simp

/-- Siblings have nothing in common. -/
theorem Owned.apart (owned : tree.Owned) (acyclic : tree.Acyclic) (id : NodeId) :
    tree.Apart (tree.slots (some id)).reduceOption := by
  refine (owned.slots_nodup id).imp_of_mem ?_
  intro first second here there distinct below one other
  have linked {child : NodeId} (member : child ∈ (tree.slots (some id)).reduceOption) :
      tree.parentOf (some child) = some id :=
    owned.mem_slots_iff.mp (List.reduceOption_mem_iff.mp member)
  exact distinct ((acyclic.line below).single _ _ _ (linked here) (linked there) one other)

namespace Traverses

theorem append (first : tree.Traverses row events) (second : tree.Traverses others otherEvents) :
    tree.Traverses (row ++ others) (events ++ otherEvents) := by
  induction first with
  | done => exact second
  | absent _ ih => exact .absent ih
  | skip present _ ih => exact .skip present ih
  | @descend id row inner events present below _ _ ih =>
    rw [List.append_assoc]
    exact .descend present below ih

theorem balanced (traverses : tree.Traverses row events) : Balanced events := by
  induction traverses with
  | done => exact .nil
  | absent _ ih => exact ih
  | skip _ _ ih => exact .pair _ false .nil ih
  | descend _ _ _ inside behind => exact .pair _ true inside behind

theorem lt_size (traverses : tree.Traverses row events) (member : id ∈ enteredIn events) :
    id < tree.size := by
  induction traverses with
  | done => cases member
  | absent _ ih => exact ih member
  | skip present _ ih =>
    rcases List.mem_cons.mp member with rfl | behind
    · exact present
    · exact ih behind
  | descend present _ _ inside behind =>
    rcases mem_enteredIn_pair.mp member with rfl | below | later
    · exact present
    · exact inside below
    · exact behind later

/-- A node is entered if it is in the row, or in a slot of one that let the walk descend. -/
theorem mem_iff (traverses : tree.Traverses row events) :
    id ∈ enteredIn events ↔ some id ∈ row ∨
      ∃ above, some id ∈ tree.slots (some above) ∧ .enter above true ∈ events := by
  induction traverses with
  | done => simp
  | absent _ ih => simpa using ih
  | @skip top row events present _ ih =>
    simp [ih, or_assoc]
  | @descend top row inner events present _ _ inside behind =>
    rw [mem_enteredIn_pair, inside, behind]
    simp [and_or_left, exists_or, or_assoc, or_left_comm]

/-- The nodes of the row come in the order of their slots. -/
theorem row_sublist (traverses : tree.Traverses row events) :
    row.reduceOption.Sublist (enteredIn events) := by
  induction traverses with
  | done => exact .slnil
  | absent _ ih => exact ih
  | skip _ _ ih => exact ih.cons_cons _
  | @descend id row inner events _ _ _ _ behind =>
    rw [enteredIn_pair]
    exact (behind.trans (List.sublist_append_right _ _)).cons_cons _

/-- So do the children of every node that lets the walk descend. -/
theorem children_sublist (traverses : tree.Traverses row events)
    (descends : .enter id true ∈ events) :
    (tree.slots (some id)).reduceOption.Sublist (enteredIn events) := by
  induction traverses with
  | done => cases descends
  | absent _ ih => exact ih descends
  | @skip top row events _ _ ih =>
    have behind : Event.enter id true ∈ events := by simpa using descends
    exact (ih behind).cons _
  | @descend top row inner events _ below _ inside behind =>
    rw [enteredIn_pair]
    simp only [List.cons_append, List.mem_cons, List.mem_append, Event.enter.injEq] at descends
    refine List.Sublist.cons _ ?_
    rcases descends with ⟨rfl, -⟩ | member | here | member
    · exact below.row_sublist.trans (List.sublist_append_left _ _)
    · exact (inside member).trans (List.sublist_append_left _ _)
    · cases here
    · exact (behind member).trans (List.sublist_append_right _ _)

/-- What is entered is at or below a node of the row. -/
theorem upward (traverses : tree.Traverses row events) (owned : tree.Owned)
    (member : id ∈ enteredIn events) : ∃ top, some top ∈ row ∧ tree.Upward id top := by
  induction traverses with
  | done => cases member
  | absent _ ih =>
    obtain ⟨top, inRow, under⟩ := ih member
    exact ⟨top, List.mem_cons_of_mem _ inRow, under⟩
  | skip _ _ ih =>
    rcases List.mem_cons.mp member with rfl | behind
    · exact ⟨_, List.mem_cons_self, .inl rfl⟩
    · obtain ⟨top, inRow, under⟩ := ih behind
      exact ⟨top, List.mem_cons_of_mem _ inRow, under⟩
  | descend _ _ _ inside behind =>
    rcases mem_enteredIn_pair.mp member with rfl | below | later
    · exact ⟨_, List.mem_cons_self, .inl rfl⟩
    · obtain ⟨child, inSlot, under⟩ := inside below
      exact ⟨_, List.mem_cons_self, under.of_parent (owned.mem_slots_iff.mp inSlot)⟩
    · obtain ⟨top, inRow, under⟩ := behind later
      exact ⟨top, List.mem_cons_of_mem _ inRow, under⟩

theorem nodup (traverses : tree.Traverses row events) (owned : tree.Owned)
    (acyclic : tree.Acyclic) (apart : tree.Apart row.reduceOption) :
    (enteredIn events).Nodup := by
  induction traverses with
  | done => exact .nil
  | absent _ ih => exact ih apart
  | @skip top row events _ later ih =>
    obtain ⟨alone, others⟩ := List.pairwise_cons.mp apart
    refine List.nodup_cons.mpr ⟨fun again => ?_, ih others⟩
    obtain ⟨other, inRow, under⟩ := later.upward owned again
    exact alone other (List.reduceOption_mem_iff.mpr inRow) top (.inl rfl) under
  | @descend top row inner events _ below later inside behind =>
    obtain ⟨alone, others⟩ := List.pairwise_cons.mp apart
    have under {id : NodeId} (member : id ∈ enteredIn inner) : tree.Above top id := by
      obtain ⟨child, inSlot, up⟩ := below.upward owned member
      have linked := owned.mem_slots_iff.mp inSlot
      rcases up with rfl | higher
      · exact .of_parent linked
      · exact higher.tail linked
    have beyond {id : NodeId} (up : tree.Upward id top) : id ∉ enteredIn events := by
      intro member
      obtain ⟨other, inRow, reach⟩ := later.upward owned member
      exact alone other (List.reduceOption_mem_iff.mpr inRow) id up reach
    rw [enteredIn_pair]
    refine List.nodup_cons.mpr ⟨?_, List.Nodup.append
      (inside (owned.apart acyclic top)) (behind others) ?_⟩
    · intro again
      rcases List.mem_append.mp again with within | later
      · exact acyclic top (under within)
      · exact beyond (.inl rfl) later
    · exact fun id within => beyond (.inr (under within))

section FromRoot

variable (traverses : tree.Traverses [some root] events) (owned : tree.Owned)
  (acyclic : tree.Acyclic)

include traverses

theorem bounds : ∃ descends inner, events = .enter root descends :: inner ++ [.leave root] := by
  cases traverses with
  | skip _ later =>
    cases later
    exact ⟨false, [], rfl⟩
  | @descend _ _ inner _ _ _ later =>
    cases later
    exact ⟨true, inner, rfl⟩

include owned acyclic

theorem once : (enteredIn events).Nodup := traverses.nodup owned acyclic (apart_singleton root)

/-- All that is above a node that is entered, up to the root, lets the walk descend. -/
theorem descends_above (member : id ∈ enteredIn events) (higher : tree.Above above id)
    (inside : tree.Upward above root) : .enter above true ∈ events := by
  have parent {id next : NodeId} (member : id ∈ enteredIn events)
      (linked : tree.parentOf (some id) = some next) (further : tree.Upward next above) :
      .enter next true ∈ events := by
    rcases traverses.mem_iff.mp member with inRow | ⟨holder, inSlot, answered⟩
    · obtain rfl : id = root := by simpa using inRow
      have circle : tree.Above above above := by
        rcases inside with rfl | inside <;> rcases further with rfl | further
        · exact .of_parent linked
        · exact further.lift linked
        · exact inside.tail linked
        · exact inside.trans (further.lift linked)
      exact absurd circle (acyclic above)
    · obtain rfl := Option.some.inj (linked.symm.trans (owned.mem_slots_iff.mp inSlot))
      exact answered
  induction higher using Relation.TransGen.head_induction_on with
  | single linked => exact parent member linked (.inl rfl)
  | head linked further ih =>
    exact ih (mem_enteredIn.mpr ⟨true, parent member linked (.inr further)⟩)

/-- A node is entered just if it is at or below the root, and nothing above it up to there
was answered with a refusal. -/
theorem mem_iff_not_refused : id ∈ enteredIn events ↔ tree.Upward id root ∧
    ∀ above, tree.Above above id → tree.Upward above root → .enter above false ∉ events := by
  have once := traverses.once owned acyclic
  constructor
  · intro member
    refine ⟨?_, fun above higher inside refused => ?_⟩
    · obtain ⟨top, inRow, upward⟩ := traverses.upward owned member
      obtain rfl : top = root := by simpa using inRow
      exact upward
    · have descends := traverses.descends_above owned acyclic member higher inside
      cases answer_unique once descends refused
  · rintro ⟨rfl | higher, free⟩
    · exact traverses.mem_iff.mpr (.inl List.mem_cons_self)
    · have next {id parent : NodeId} (linked : tree.parentOf (some id) = some parent)
          (member : parent ∈ enteredIn events) (free : .enter parent false ∉ events) :
          id ∈ enteredIn events := by
        obtain ⟨descends, answered⟩ := mem_enteredIn.mp member
        cases descends with
        | false => exact absurd answered free
        | true =>
          have held := owned.mem_slots_iff.mpr linked
          exact traverses.mem_iff.mpr (.inr ⟨parent, held, answered⟩)
      induction higher using Relation.TransGen.head_induction_on with
      | single linked =>
        exact next linked (traverses.mem_iff.mpr (.inl List.mem_cons_self))
          (free root (.of_parent linked) (.inl rfl))
      | head linked further ih =>
        refine next linked (ih fun above higher => free above (higher.lift linked)) ?_
        exact free _ (.of_parent linked) (.inr further)

/-- The children of a node are entered in the order of its slots, or not at all. -/
theorem siblings (answered : .enter id descends ∈ events) :
    (enteredIn events).filter (fun child => tree.parentOf (some child) = some id) =
      if descends then tree.children (some id) else [] := by
  have once := traverses.once owned acyclic
  cases descends with
  | false =>
    refine List.filter_eq_nil_iff.mpr fun child member => ?_
    have upward := ((traverses.mem_iff_not_refused owned acyclic).mp
      (mem_enteredIn.mpr ⟨_, answered⟩)).1
    simp only [decide_eq_true_eq]
    intro linked
    exact ((traverses.mem_iff_not_refused owned acyclic).mp member).2 id (.of_parent linked) upward
      answered
  | true =>
    have sublist : (tree.children (some id)).Sublist (enteredIn events) := by
      rw [children_eq]
      exact traverses.children_sublist answered
    have all : (tree.children (some id)).filter (fun child => tree.parentOf (some child) = some id) =
        tree.children (some id) :=
      List.filter_eq_self.mpr fun child member => by simpa using owned.mem_children_iff.mp member
    have kept := sublist.filter (fun child => tree.parentOf (some child) = some id)
    rw [all] at kept
    refine (kept.eq_of_length_le ?_).symm
    refine (List.subperm_of_subset (once.filter _) fun child member => ?_).length_le
    exact owned.mem_children_iff.mpr (by simpa using (List.mem_filter.mp member).2)

end FromRoot

end Traverses

end Tree

end ScriptSyntax
