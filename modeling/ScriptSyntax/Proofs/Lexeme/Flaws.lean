import ScriptSyntax.Proofs.Lexeme.LineBreaks

/-! The flaws of a lexeme lie inside it. -/
namespace ScriptSyntax

/-- A flaw covers at least one character, and none outside `first` up to `last`. -/
structure Flaw.Within (flaw : Flaw) (first last : Nat) : Prop where
  first_le : first ≤ flaw.start
  start_lt : flaw.start < flaw.stop
  le_last : flaw.stop ≤ last

theorem Flaw.Within.widen {flaw : Flaw} {first last outerFirst outerLast : Nat}
    (within : flaw.Within first last) (before : outerFirst ≤ first) (behind : last ≤ outerLast) :
    flaw.Within outerFirst outerLast :=
  ⟨Nat.le_trans before within.first_le, within.start_lt, Nat.le_trans within.le_last behind⟩

theorem stringBody_flaws (quote : Char) (offset : Nat) (text : List Char) :
    ∀ flaw ∈ (stringBody quote offset text).flaws,
      flaw.Within offset (offset + (stringBody quote offset text).text.length) := by
  fun_induction stringBody quote offset text with
  | case1 | case2 | case3 => simp [Body.cut, Body.close]
  | case4 offset c rest _ plain backslash escape stop ih =>
    intro flaw member
    have width := (Escape.read_spelled rest).width_le
    have length : (rest.take escape.width).length = escape.width := by
      rw [List.length_take, Nat.min_eq_left width]
    simp only [Body.after, List.length_append, List.length_cons, length]
    rcases List.mem_append.mp member with own | later
    · obtain ⟨problem, -, rfl⟩ := List.mem_map.mp own
      exact ⟨Nat.le_refl _, by simp only [stop]; omega, by simp only [stop]; omega⟩
    · exact (ih flaw later).widen (by omega) (by omega)
  | case5 offset c rest _ plain _ ih =>
    intro flaw member
    simp only [Body.after, List.length_append, List.length_singleton]
    exact (ih flaw member).widen (by omega) (by omega)

namespace Lexeme

/-- Every flaw of a lexeme lies inside its text. -/
def FlawsWithin (lexeme : Lexeme) : Prop :=
  ∀ flaw ∈ lexeme.flaws, flaw.Within 0 lexeme.text.length

theorem FlawsWithin.of_none {lexeme : Lexeme} (none : lexeme.flaws = []) : lexeme.FlawsWithin := by
  intro flaw member
  simp [none] at member

theorem illegal_flawsWithin (c : Char) (rest : List Char) :
    (illegal (c :: rest)).1.FlawsWithin := by
  intro flaw member
  obtain rfl := List.mem_singleton.mp member
  exact ⟨Nat.le_refl _, Nat.zero_lt_one, Nat.le_refl _⟩

theorem mark_flawsWithin (c : Char) (rest : List Char) : (mark (c :: rest)).1.FlawsWithin := by
  unfold mark
  split
  · exact .of_none rfl
  · exact illegal_flawsWithin c rest

theorem escapedWord_flawsWithin (strict : Bool) (c : Char) (rest : List Char) :
    (escapedWord strict (c :: rest)).1.FlawsWithin := by
  unfold escapedWord
  split
  · exact .of_none rfl
  · exact illegal_flawsWithin c rest

theorem blockComment_flawsWithin {opening text : List Char}
    (nonempty : (blockComment opening text).1.text ≠ []) :
    (blockComment opening text).1.FlawsWithin := by
  intro flaw member
  have positive := List.length_pos_iff.mpr nonempty
  simp only [blockComment] at member positive ⊢
  split at member
  · cases member
  · obtain rfl := List.mem_singleton.mp member
    exact ⟨Nat.le_refl _, positive, Nat.le_refl _⟩

theorem stringLiteral_flawsWithin (quote : Char) (text : List Char) :
    (stringLiteral quote text).1.FlawsWithin := by
  intro flaw member
  simp only [stringLiteral, List.length_cons] at member ⊢
  rcases List.mem_append.mp member with inside | cutOff
  · exact (stringBody_flaws quote 1 text flaw inside).widen (by omega) (by omega)
  · split at cutOff
    · cases cutOff
    · obtain rfl := List.mem_singleton.mp cutOff
      exact ⟨Nat.le_refl _, by simp, Nat.le_refl _⟩

theorem numeral_flawsWithin {c : Char} {rest : List Char}
    (starts : isDecimalDigit c || c == '.') : (numeral (c :: rest)).1.FlawsWithin := by
  intro flaw member
  have digits : 0 < (Numeral.read (c :: rest)).digits.length :=
    List.length_pos_iff.mpr (Numeral.read_digits_ne_nil starts)
  have taken := (isPrefix_append_of_drop (Numeral.read_isPrefix (c :: rest))
    (Numeral.tail_isPrefix _)).length_le
  rw [List.length_append] at taken
  unfold numeral at member ⊢
  simp only [List.length_take, Nat.min_eq_left taken] at member ⊢
  rcases List.mem_append.mp member with octal | stuck
  · split at octal
    · obtain rfl := List.mem_singleton.mp octal
      exact ⟨Nat.le_refl _, digits, Nat.le_add_right _ _⟩
    · cases octal
  · split at stuck
    · cases stuck
    · obtain rfl := List.mem_singleton.mp stuck
      exact ⟨Nat.le_refl _, Nat.add_pos_left digits _, Nat.le_refl _⟩

theorem slash_flawsWithin (regex : Bool) (rest : List Char) :
    (slash regex rest).1.FlawsWithin := by
  rcases slash_reads regex rest with same | ⟨body, -, same⟩ | ⟨-, reads⟩ | same
  · rw [same]
    exact .of_none rfl
  · rw [same]
    exact blockComment_flawsWithin (by simp [blockComment])
  · obtain ⟨_, -, same⟩ := Option.map_eq_some_iff.mp reads
    rw [← same]
    exact .of_none rfl
  · rw [same]
    exact mark_flawsWithin _ _

theorem read_flawsWithin (mode : LexMode) (text : List Char) :
    (read mode text).1.FlawsWithin := by
  unfold read
  split
  · exact .of_none rfl
  · next c rest =>
    split
    · exact blockComment_flawsWithin
        (by simpa [blockComment] using commentBody_text_ne_nil 0 c rest)
    split
    · exact .of_none rfl
    split
    · exact .of_none rfl
    split
    · exact .of_none rfl
    split
    · exact stringLiteral_flawsWithin c rest
    split
    · next starts =>
      apply numeral_flawsWithin
      simp only [Bool.or_eq_true, Bool.and_eq_true] at starts ⊢
      exact starts.imp id And.left
    split
    · exact slash_flawsWithin mode.regex rest
    split
    · exact escapedWord_flawsWithin mode.strict c rest
    split
    · exact .of_none rfl
    · exact mark_flawsWithin c rest

end Lexeme

end ScriptSyntax
