import ScriptSyntax.Source.LineTable
import Mathlib.Data.List.Basic

/-! The line starts of a text are those of its parts, as long as no terminator is cut
in two. A location depends only on the line starts up to its offset. -/
namespace ScriptSyntax.LineTable

/-- A cut between a carriage return and its line feed. -/
def CutsBreak (left right : List Char) : Prop :=
  left.getLast? = some '\r' ∧ right.head? = some '\n'

theorem CutsBreak.of_append {left middle right : List Char} (nonempty : middle ≠ [])
    (cut : CutsBreak left middle) : CutsBreak left (middle ++ right) := by
  obtain ⟨c, rest, rfl⟩ := List.exists_cons_of_ne_nil nonempty
  exact cut

theorem CutsBreak.of_cons {c : Char} {left right : List Char} (cut : CutsBreak left right) :
    CutsBreak (c :: left) right :=
  ⟨by rw [List.getLast?_cons, cut.1, Option.getD_some], cut.2⟩

theorem not_cutsBreak_append {left middle right : List Char} (nonempty : middle ≠ [])
    (uncut : ¬ CutsBreak middle right) : ¬ CutsBreak (left ++ middle) right := by
  rintro ⟨last, next⟩
  exact uncut ⟨by rwa [List.getLast?_append_of_ne_nil _ nonempty] at last, next⟩

/-- A character that is no carriage return before a line feed. -/
theorem not_cutsBreak_of_whole {c : Char} {rest : List Char}
    (whole : ∀ after, c = '\r' → rest = '\n' :: after → False) : ¬ CutsBreak [c] rest := by
  rintro ⟨last, next⟩
  obtain ⟨after, rfl⟩ := List.head?_eq_some_iff.mp next
  exact whole after (by simpa using last) rfl

/-- A terminator that does not reach past its first character. -/
private theorem not_cutsBreak_singleton {c : Char} {rest right : List Char}
    (whole : ∀ after, c = '\r' → rest = '\n' :: after → False)
    (uncut : ¬ CutsBreak (c :: rest) right) : ¬ CutsBreak [c] (rest ++ right) := by
  rintro ⟨last, next⟩
  cases rest with
  | nil => exact uncut ⟨last, next⟩
  | cons d rest => exact whole rest (by simpa using last) (by simpa using next)

theorem startsIn_cons {c : Char} {rest : List Char} (offset : Nat)
    (whole : ¬ CutsBreak [c] rest) :
    startsIn offset (c :: rest) =
      (if isLineTerminator c then [offset + 1] else []) ++ startsIn (offset + 1) rest := by
  have apart : ∀ after, c = '\r' → rest = '\n' :: after → False := by
    rintro after rfl rfl
    exact whole ⟨rfl, rfl⟩
  rw [startsIn.eq_3 offset c rest apart]
  split <;> rfl

theorem startsIn_singleton (offset : Nat) (c : Char) :
    startsIn offset [c] = if isLineTerminator c then [offset + 1] else [] := by
  rw [startsIn_cons offset (by simp [CutsBreak]), startsIn, List.append_nil]

theorem startsIn_append {left right : List Char} (offset : Nat)
    (uncut : ¬ CutsBreak left right) :
    startsIn offset (left ++ right) =
      startsIn offset left ++ startsIn (offset + left.length) right := by
  fun_induction startsIn offset left with
  | case1 => simp
  | case2 offset rest ih =>
    have uncutRest : ¬ CutsBreak rest right := fun cut => uncut cut.of_cons.of_cons
    simp [startsIn, ih uncutRest, Nat.add_assoc, Nat.add_comm 2]
  | case3 offset c rest whole terminator ih =>
    have single := not_cutsBreak_singleton whole uncut
    have uncutRest : ¬ CutsBreak rest right := fun cut => uncut cut.of_cons
    simp [startsIn_cons offset single, terminator, ih uncutRest, Nat.add_assoc, Nat.add_comm 1]
  | case4 offset c rest whole plain ih =>
    have single := not_cutsBreak_singleton whole uncut
    have uncutRest : ¬ CutsBreak rest right := fun cut => uncut cut.of_cons
    simp [startsIn_cons offset single, plain, ih uncutRest, Nat.add_assoc, Nat.add_comm 1]

theorem startsIn_eq_nil {text : List Char} (offset : Nat)
    (plain : ∀ c ∈ text, isLineTerminator c = false) : startsIn offset text = [] := by
  fun_induction startsIn offset text <;> simp_all
  case case2 => exact absurd plain.1 (by decide)

/-- A line begins in a text just if there is a terminator in it. -/
theorem startsIn_isEmpty (offset : Nat) (text : List Char) :
    (startsIn offset text).isEmpty = !text.any isLineTerminator := by
  fun_induction startsIn offset text <;> simp_all
  case case2 => exact fun plain => absurd plain (by decide)

/-- Moving a text moves its line starts along. -/
theorem startsIn_add (distance offset : Nat) (text : List Char) :
    startsIn (distance + offset) text = (startsIn offset text).map (distance + ·) := by
  fun_induction startsIn offset text <;> simp_all [startsIn, Nat.add_assoc]

theorem mem_startsIn_bounds {start offset : Nat} {text : List Char}
    (member : start ∈ startsIn offset text) : offset < start ∧ start ≤ offset + text.length := by
  fun_induction startsIn offset text with
  | case1 => simp at member
  | case2 offset rest ih | case3 offset c rest whole terminator ih =>
    rcases List.mem_cons.mp member with same | later
    · subst same
      simp only [List.length_cons]
      omega
    · have bounds := ih later
      simp only [List.length_cons]
      omega
  | case4 offset c rest whole plain ih =>
    have bounds := ih member
    simp only [List.length_cons]
    omega

theorem startsIn_increasing (offset : Nat) (text : List Char) :
    (startsIn offset text).Pairwise (· < ·) := by
  fun_induction startsIn offset text with
  | case1 => exact .nil
  | case2 offset rest ih | case3 offset c rest whole terminator ih =>
    exact List.pairwise_cons.mpr ⟨fun start member => (mem_startsIn_bounds member).1, ih⟩
  | case4 offset c rest whole plain ih => exact ih

/-- The line starts up to a cut are those of the text before it. -/
theorem startsIn_filter {left right : List Char} (offset : Nat)
    (uncut : ¬ CutsBreak left right) :
    (startsIn offset (left ++ right)).filter (· ≤ offset + left.length) =
      startsIn offset left := by
  rw [startsIn_append offset uncut, List.filter_append]
  have kept : (startsIn offset left).filter (· ≤ offset + left.length) = startsIn offset left :=
    List.filter_eq_self.mpr fun start member => by simpa using (mem_startsIn_bounds member).2
  have dropped : (startsIn (offset + left.length) right).filter (· ≤ offset + left.length) = [] :=
    List.filter_eq_nil_iff.mpr fun start member => by simpa using (mem_startsIn_bounds member).1
  rw [kept, dropped, List.append_nil]

@[simp] theorem locate_index (table : LineTable) (index : Nat) :
    (table.locate index).index = index := by
  unfold locate
  split <;> rfl

@[simp] theorem record_initial (table : LineTable) (offset : Nat) :
    (table.record offset).initial = table.initial := by
  unfold record
  repeat' split
  all_goals rfl

@[simp] theorem recordAll_initial (table : LineTable) (offsets : List Nat) :
    (table.recordAll offsets).initial = table.initial := by
  induction offsets generalizing table with
  | nil => rfl
  | cons offset rest ih => exact (ih _).trans (record_initial table offset)

/-- A line start past all others is added behind them. -/
theorem record_of_lt {table : LineTable} {offset : Nat}
    (past : ∀ start ∈ table.recorded, start < offset) :
    table.record offset = { table with recorded := offset :: table.recorded } := by
  unfold record
  split
  · next empty => rw [empty]
  · next last rest found => rw [if_pos (past last (by simp [found])), found]

/-- Line starts that arrive in increasing order are all kept. -/
theorem recordAll_of_increasing {table : LineTable} {offsets : List Nat}
    (increasing : offsets.Pairwise (· < ·))
    (past : ∀ start ∈ table.recorded, ∀ offset ∈ offsets, start < offset) :
    table.recordAll offsets = { table with recorded := offsets.reverse ++ table.recorded } := by
  induction offsets generalizing table with
  | nil => rfl
  | cons offset rest ih =>
    obtain ⟨first, later⟩ := List.pairwise_cons.mp increasing
    have added : table.record offset = { table with recorded := offset :: table.recorded } :=
      record_of_lt fun start member => past start member offset (by simp)
    have others : ∀ start ∈ offset :: table.recorded, ∀ next ∈ rest, start < next := by
      intro start member next present
      rcases List.mem_cons.mp member with same | earlier
      · subst same
        exact first next present
      · exact past start earlier next (by simp [present])
    calc table.recordAll (offset :: rest)
        = (table.record offset).recordAll rest := rfl
      _ = LineTable.recordAll { table with recorded := offset :: table.recorded } rest := by
        rw [added]
      _ = { table with recorded := rest.reverse ++ offset :: table.recorded } := ih later others
      _ = { table with recorded := (offset :: rest).reverse ++ table.recorded } := by simp

@[simp] theorem ofText_initial (text : List Char) (initial : Location) :
    (ofText text initial).initial = initial :=
  recordAll_initial _ _

theorem ofText_recorded (text : List Char) (initial : Location) :
    (ofText text initial).recorded = (startsIn initial.index text).reverse := by
  rw [ofText, recordAll_of_increasing (startsIn_increasing _ _) (by simp)]
  simp

/-- The lines that the table of a text holds are those that start in the text. -/
theorem ofText_starts (text : List Char) (initial : Location) :
    (ofText text initial).starts = startsIn initial.index text := by
  rw [starts, ofText_recorded, List.reverse_reverse]

/-- The table of a text, and of what follows it: the later line starts are added. -/
theorem ofText_append {left right : List Char} (initial : Location)
    (uncut : ¬ CutsBreak left right) :
    (ofText left initial).recordAll (startsIn (initial.index + left.length) right) =
      ofText (left ++ right) initial := by
  rw [recordAll_of_increasing (startsIn_increasing _ _), LineTable.mk.injEq]
  · constructor
    · rw [ofText_initial, ofText_initial]
    · rw [ofText_recorded, ofText_recorded, startsIn_append _ uncut, List.reverse_append]
  · intro start member offset present
    rw [ofText_recorded, List.mem_reverse] at member
    have before := mem_startsIn_bounds member
    have after := mem_startsIn_bounds present
    omega

theorem dropWhile_filter_le {index bound : Nat} (within : index ≤ bound) {recorded : List Nat}
    (decreasing : recorded.Pairwise (· > ·)) :
    (recorded.filter (· ≤ bound)).dropWhile (index < ·) = recorded.dropWhile (index < ·) := by
  induction recorded with
  | nil => rfl
  | cons start rest ih =>
    obtain ⟨first, later⟩ := List.pairwise_cons.mp decreasing
    by_cases kept : start ≤ bound
    · have all : rest.filter (· ≤ bound) = rest :=
        List.filter_eq_self.mpr fun other member => by
          have smaller := first other member
          simp only [decide_eq_true_eq]
          omega
      rw [List.filter_cons_of_pos (by simpa using kept), all]
    · have past : index < start := by omega
      rw [List.filter_cons_of_neg (by simpa using kept), ih later,
        List.dropWhile_cons_of_pos (by simpa using past)]

theorem ofText_decreasing (text : List Char) (initial : Location) :
    (ofText text initial).recorded.Pairwise (· > ·) := by
  rw [ofText_recorded]
  exact List.pairwise_reverse.mpr (startsIn_increasing _ _)

/-- The table of a text as far as it has been read: its line starts up to `bound`. -/
structure UpTo (table : LineTable) (source : List Char) (initial : Location) (bound : Nat) :
    Prop where
  begins : table.initial = initial
  recorded : table.recorded = (ofText source initial).recorded.filter (· ≤ bound)

variable {table : LineTable} {source left right : List Char} {initial : Location} {bound : Nat}

/-- A location needs no line starts past its offset, so it is the same however much more
has been read. -/
theorem UpTo.locate {index : Nat} (upTo : table.UpTo source initial bound)
    (within : index ≤ bound) : table.locate index = (ofText source initial).locate index := by
  unfold LineTable.locate
  rw [upTo.recorded, upTo.begins, ofText_initial,
    dropWhile_filter_le within (ofText_decreasing source initial)]

theorem UpTo.starts (upTo : table.UpTo source initial bound) :
    table.starts = (ofText source initial).starts.filter (· ≤ bound) := by
  rw [LineTable.starts, upTo.recorded, LineTable.starts, List.filter_reverse]

theorem ofText_upTo (uncut : ¬ CutsBreak left right) :
    (ofText left initial).UpTo (left ++ right) initial (initial.index + left.length) where
  begins := ofText_initial left initial
  recorded := by
    rw [ofText_recorded, ofText_recorded, List.filter_reverse, startsIn_filter _ uncut]

/-- Inside a piece of text that is read after `left`, the table holds the lines that have
begun so far. -/
theorem recordAll_upTo (initial : Location) {piece : List Char} {reached : Nat}
    (uncut : ¬ CutsBreak left piece)
    (uncutPiece : ¬ CutsBreak (left ++ piece) right) (inside : reached ≤ piece.length) :
    ((ofText left initial).recordAll (((startsIn 0 piece).filter (· ≤ reached)).map
      (initial.index + left.length + ·))).UpTo (left ++ piece ++ right) initial
      (initial.index + left.length + reached) := by
  have moved : ((startsIn 0 piece).filter (· ≤ reached)).map (initial.index + left.length + ·) =
      (startsIn (initial.index + left.length) piece).filter
        (· ≤ initial.index + left.length + reached) := by
    rw [← Nat.add_zero (initial.index + left.length), startsIn_add, List.filter_map]
    congr 2
    funext start
    simp
  have before : (startsIn initial.index left).filter
      (· ≤ initial.index + left.length + reached) = startsIn initial.index left := by
    apply List.filter_eq_self.mpr
    intro start member
    have bounds := mem_startsIn_bounds member
    simp only [decide_eq_true_eq]
    omega
  have behind : (startsIn (initial.index + (left ++ piece).length) right).filter
      (· ≤ initial.index + left.length + reached) = [] := by
    apply List.filter_eq_nil_iff.mpr
    intro start member
    have bounds := mem_startsIn_bounds member
    rw [List.length_append] at bounds
    simp only [decide_eq_true_eq]
    omega
  rw [moved, recordAll_of_increasing ((startsIn_increasing _ _).filter _)]
  · constructor
    · exact ofText_initial left initial
    · simp only [ofText_recorded]
      rw [List.filter_reverse, startsIn_append _ uncutPiece, startsIn_append _ uncut,
        List.filter_append, List.filter_append, before, behind, List.append_nil,
        List.reverse_append]
  · intro start member offset present
    rw [ofText_recorded, List.mem_reverse] at member
    have earlier := mem_startsIn_bounds member
    have later := mem_startsIn_bounds (List.mem_filter.mp present).1
    omega

end ScriptSyntax.LineTable
