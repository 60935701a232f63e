import ScriptSyntax.Proofs.Source.LineTable

/-! A text that is cut off from a longer one, and begins where the cut is, has the same
lines, wherever the cut is made. -/
namespace ScriptSyntax.LineTable

/-- The first character of a text starts no line past the character behind it. -/
theorem startsIn_cons_filter (offset : Nat) (c : Char) (text : List Char) {bound : Nat}
    (past : offset < bound) :
    (startsIn offset (c :: text)).filter (bound < ·) =
      (startsIn (offset + 1) text).filter (bound < ·) := by
  by_cases cut : CutsBreak [c] text
  · obtain ⟨last, next⟩ := cut
    obtain ⟨rest, rfl⟩ := List.head?_eq_some_iff.mp next
    obtain rfl : c = '\r' := by simpa using last
    rfl
  · have single : (if isLineTerminator c then [offset + 1] else []).filter (bound < ·) = [] := by
      split
      · simpa using Nat.succ_le_of_lt past
      · rfl
    rw [startsIn_cons offset cut, List.filter_append, single, List.nil_append]

/-- The lines that start behind a cut are those of the text behind it, also where the cut
is inside a terminator. -/
theorem startsIn_filter_past (offset : Nat) (left right : List Char) :
    (startsIn offset (left ++ right)).filter (offset + left.length < ·) =
      startsIn (offset + left.length) right := by
  induction left generalizing offset with
  | nil =>
    apply List.filter_eq_self.mpr
    intro start member
    simpa using (mem_startsIn_bounds member).1
  | cons c left ih =>
    have length : offset + (c :: left).length = offset + 1 + left.length := by
      rw [List.length_cons, Nat.add_right_comm, Nat.add_assoc]
    rw [List.cons_append, length, startsIn_cons_filter offset c _ (by omega), ih]

theorem takeWhile_of_decreasing {recorded : List Nat} (decreasing : recorded.Pairwise (· > ·))
    (bound : Nat) : recorded.takeWhile (bound < ·) = recorded.filter (bound < ·) := by
  induction recorded with
  | nil => rfl
  | cons start rest ih =>
    obtain ⟨first, later⟩ := List.pairwise_cons.mp decreasing
    by_cases past : bound < start
    · rw [List.takeWhile_cons_of_pos (by simpa using past),
        List.filter_cons_of_pos (by simpa using past), ih later]
    · rw [List.takeWhile_cons_of_neg (by simpa using past), eq_comm, List.filter_eq_nil_iff]
      intro other member
      rcases List.mem_cons.mp member with rfl | behind
      · simpa using past
      · have smaller := first other behind
        simp only [decide_eq_true_eq]
        omega

/-- The lines of a text are those of what follows a cut and those before it, latest first. -/
theorem ofText_recorded_cut (left right : List Char) (initial : Location) :
    (ofText (left ++ right) initial).recorded =
      (startsIn (initial.index + left.length) right).reverse ++
        (ofText (left ++ right) initial).recorded.dropWhile (initial.index + left.length < ·) := by
  have behind : (ofText (left ++ right) initial).recorded.takeWhile
      (initial.index + left.length < ·) = (startsIn (initial.index + left.length) right).reverse := by
    rw [takeWhile_of_decreasing (ofText_decreasing _ _), ofText_recorded, List.filter_reverse,
      startsIn_filter_past]
  rw [← behind, List.takeWhile_append_dropWhile]

/-- A table that begins where another stands at `cut`, and holds the lines that start
behind it, locates what lies behind the cut as that other does. -/
theorem locate_behind {whole later : LineTable} {cut index : Nat}
    (begins : later.initial = whole.locate cut)
    (lines : whole.recorded = later.recorded ++ whole.recorded.dropWhile (cut < ·))
    (origin : whole.initial.index ≤ cut) (past : cut ≤ index) :
    later.locate index = whole.locate index := by
  obtain ⟨front, dropped⟩ : ∃ front, whole.recorded.dropWhile (cut < ·) = front := ⟨_, rfl⟩
  rw [dropped] at lines
  have head := List.head?_dropWhile_not (cut < ·) whole.recorded
  rw [dropped] at head
  have stays : front.dropWhile (index < ·) = front := by
    cases front with
    | nil => rfl
    | cons start earlier =>
      have before : start ≤ cut := by simpa using head
      rw [List.dropWhile_cons_of_neg (by simp; omega)]
  have place : (whole.recorded.dropWhile (index < ·)) =
      if (later.recorded.dropWhile (index < ·)).isEmpty then front
      else later.recorded.dropWhile (index < ·) ++ front := by
    rw [lines, List.dropWhile_append, stays]
  rw [locate, locate, place, begins, locate, dropped]
  cases later.recorded.dropWhile (index < ·) with
  | nil =>
    cases front with
    | nil =>
      simp
      omega
    | cons start earlier =>
      have before : start ≤ cut := by simpa using head
      simp
      omega
  | cons start earlier =>
    cases front with
    | nil => simp
    | cons first others =>
      simp
      omega

/-- A text that is located from where it was cut off is located as in the whole. -/
theorem locate_resume (left right : List Char) (initial : Location) {index : Nat}
    (past : initial.index + left.length ≤ index) :
    (ofText right ((ofText (left ++ right) initial).locate
      (initial.index + left.length))).locate index =
      (ofText (left ++ right) initial).locate index := by
  apply locate_behind (ofText_initial _ _) _ _ past
  · rw [ofText_recorded right, locate_index]
    exact ofText_recorded_cut left right initial
  · rw [ofText_initial]
    exact Nat.le_add_right _ _

end ScriptSyntax.LineTable
