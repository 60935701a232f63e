import ScriptSyntax.Proofs.Lexeme.Numerals

/-! Longest lexemes. A lexeme that is a run takes all that goes on with it, and what blank
space, a line end or an identifier begins with could have gone on with another of its kind. -/
namespace ScriptSyntax

/-- Whether a text goes on with a token of this kind that stands before it. -/
def TokenKind.goesOn (kind : TokenKind) (text : List Char) : Bool :=
  match kind with
  | .whiteSpace => text.head?.any isBlank
  | .endOfLine => text.head?.any isLineTerminator
  | .lineComment => text.head?.any (!isLineTerminator ·)
  | .identifier | .word _ => !(WordPart.read text).text.isEmpty
  | .regularExpression => text.head?.any isIdentifierPart
  | .numeral => text.head?.any fun c => isDecimalDigit c || isIdentifierStart c
  | _ => false

/-- The kinds of which no two tokens stand side by side. -/
def TokenKind.isRun : TokenKind → Bool
  | .whiteSpace | .endOfLine | .identifier => true
  | _ => false

theorem any_head?_dropWhile (test : Char → Bool) (text : List Char) :
    (text.dropWhile test).head?.any test = false := by
  induction text with
  | nil => rfl
  | cons c rest ih =>
    by_cases passes : test c
    · rwa [List.dropWhile_cons_of_pos passes]
    · simp [passes]

theorem lineBreakRun_stops (offset : Nat) (text : List Char) :
    (lineBreakRun offset text).rest.head?.any isLineTerminator = false := by
  fun_induction lineBreakRun offset text <;> simp_all [Body.cut, Body.after]

namespace WordPart

/-- Nothing of a word is left behind it. -/
theorem read_rest (text : List Char) : (read (read text).rest).text = [] := by
  fun_induction read text with
  | case1 => rw [read]
  | case2 | case3 => assumption
  | case4 c rest other unspelled => rw [read, if_neg other, unspelled]

theorem read_text_ne_nil_of_part {c : Char} (part : isIdentifierPart c) (rest : List Char) :
    (read (c :: rest)).text ≠ [] := by
  rw [read, if_pos part]
  exact List.cons_ne_nil _ _

theorem no_part_of_read {text : List Char} (ends : (read text).text = []) :
    ∀ c ∈ text.head?, isIdentifierPart c = false := by
  intro c first
  obtain ⟨rest, rfl⟩ := List.head?_eq_some_iff.mp first
  by_contra part
  exact read_text_ne_nil_of_part (Bool.not_eq_false _ ▸ part) rest ends

/-- An escape that begins a word could have continued one. -/
theorem read_text_ne_nil_of_escaped? {text : List Char} {c : Char}
    (spelled : escaped? isIdentifierStart text = some c) : (read text).text ≠ [] := by
  obtain ⟨rest, rfl⟩ := List.head?_eq_some_iff.mp (head?_of_escaped? spelled)
  obtain ⟨code, escape, scalar, starts⟩ := escaped?_eq_some.mp spelled
  have continues : escaped? isIdentifierPart ('\\' :: rest) = some c :=
    escaped?_eq_some.mpr ⟨code, escape, scalar, isIdentifierPart_of_isIdentifierStart starts⟩
  rw [read, if_neg (by decide), continues]
  exact List.cons_ne_nil _ _

theorem goesOn_kind (part : WordPart) (strict : Bool) (text : List Char) :
    (part.kind strict).goesOn text = !(read text).text.isEmpty := by
  rcases part.kind_cases strict with kind | ⟨reserved, kind⟩
  · rw [kind, TokenKind.goesOn]
  · rw [kind, TokenKind.goesOn]

/-- However it begins, a word ends where nothing goes on with it. -/
theorem toLexeme_after_stops (text taken : List Char) (first : Char) (isEscaped strict : Bool) :
    let word := ((read text).after taken first isEscaped).toLexeme strict
    word.1.kind.goesOn word.2 = false := by
  intro word
  change (WordPart.kind _ strict).goesOn (read text).rest = false
  rw [goesOn_kind, read_rest]
  rfl

/-- What a word begins with could have continued one. -/
theorem toLexeme_begins {text : List Char} (begins : (read text).text ≠ []) (part : WordPart)
    (strict : Bool) : (part.toLexeme strict).1.kind.goesOn text = true := by
  change (part.kind strict).goesOn text = true
  rw [goesOn_kind]
  simpa using begins

end WordPart

namespace Lexeme

theorem mark_stops (text : List Char) : (mark text).1.kind.goesOn (mark text).2 = false := by
  unfold mark
  split <;> rfl

theorem numeral_stops (text : List Char) :
    (numeral text).1.kind.goesOn (numeral text).2 = false := by
  refine (Option.any_eq_false _ _).mpr fun c next => ?_
  rw [numeral, ← List.drop_drop] at next
  simpa using tail_stops _ c next

theorem slash_stops (regex : Bool) (rest : List Char) :
    (slash regex rest).1.kind.goesOn (slash regex rest).2 = false := by
  rcases slash_reads regex rest with same | ⟨body, -, same⟩ | ⟨-, reads⟩ | same
  · rw [same]
    exact any_head?_dropWhile _ _
  · rw [same]
    rfl
  · obtain ⟨_, -, same⟩ := Option.map_eq_some_iff.mp reads
    rw [← same]
    exact any_head?_dropWhile _ _
  · rw [same]
    exact mark_stops _

theorem escapedWord_stops (strict : Bool) (text : List Char) :
    (escapedWord strict text).1.kind.goesOn (escapedWord strict text).2 = false := by
  unfold escapedWord
  split
  · exact WordPart.toLexeme_after_stops _ _ _ true strict
  · rfl

/-- The text behind a lexeme does not go on with it. -/
theorem read_stops (mode : LexMode) (text : List Char) :
    (read mode text).1.kind.goesOn (read mode text).2 = false := by
  cases text with
  | nil => rfl
  | cons c rest =>
    rw [read.eq_2]
    split
    · rfl
    split
    · rfl
    split
    · exact any_head?_dropWhile _ _
    split
    · exact lineBreakRun_stops 0 _
    split
    · rfl
    split
    · exact numeral_stops _
    split
    · exact slash_stops mode.regex rest
    split
    · exact escapedWord_stops mode.strict _
    split
    · exact WordPart.toLexeme_after_stops rest [c] c false mode.strict
    · exact mark_stops _

theorem mark_isRun (text : List Char) : (mark text).1.kind.isRun = false := by
  unfold mark
  split <;> rfl

theorem slash_isRun (regex : Bool) (rest : List Char) :
    (slash regex rest).1.kind.isRun = false := by
  rcases slash_reads regex rest with same | ⟨body, -, same⟩ | ⟨-, reads⟩ | same
  · rw [same]
    rfl
  · rw [same]
    rfl
  · rw [(regularExpression?_kind reads).1]
    rfl
  · rw [same]
    exact mark_isRun _

/-- What a run begins with could have gone on with another of its kind. -/
theorem read_begins {mode : LexMode} {text : List Char} (run : (read mode text).1.kind.isRun) :
    (read mode text).1.kind.goesOn text = true := by
  revert run
  cases text with
  | nil => exact fun run => by cases run
  | cons c rest =>
    rw [read.eq_2]
    split
    · exact fun run => by cases run
    split
    · exact fun run => by cases run
    split
    · next blank => exact fun _ => blank
    split
    · next terminator => exact fun _ => terminator
    split
    · exact fun run => by cases run
    split
    · exact fun run => by cases run
    split
    · exact fun run => absurd run (by simp [slash_isRun])
    split
    · unfold escapedWord
      split
      · next spelled =>
        exact fun _ => WordPart.toLexeme_begins (WordPart.read_text_ne_nil_of_escaped? spelled) _ _
      · exact fun run => by cases run
    split
    · next starts =>
      have part := isIdentifierPart_of_isIdentifierStart starts
      exact fun _ => WordPart.toLexeme_begins (WordPart.read_text_ne_nil_of_part part rest) _ _
    · exact fun run => absurd run (by simp [mark_isRun])

theorem read_kind_ne {mode : LexMode} {text : List Char} {kind : TokenKind} (run : kind.isRun)
    (stops : kind.goesOn text = false) : (read mode text).1.kind ≠ kind := by
  rintro rfl
  rw [read_begins run] at stops
  cases stops

/-- Outside a comment only a line end begins with a line terminator. -/
theorem read_of_isLineTerminator {mode : LexMode} {c : Char} (outside : mode.inComment = false)
    (terminator : isLineTerminator c) (rest : List Char) :
    read mode (c :: rest) = lineEnds (c :: rest) := by
  have null : c ≠ '\x00' := by rintro rfl; cases terminator
  have blank : isBlank c = false := by
    simp only [isLineTerminator, Bool.or_eq_true, beq_iff_eq] at terminator
    rcases terminator with ((rfl | rfl) | rfl) | rfl <;> rfl
  simp [read.eq_2, outside, null, blank, terminator]

/-- What ends a line comment is a line end or the end of input. -/
theorem read_of_lineComment_stops {mode : LexMode} {text : List Char}
    (stops : TokenKind.lineComment.goesOn text = false)
    (outside : mode.inComment = true → text = []) :
    (read mode text).1.kind = .endOfLine ∨ (read mode text).1.kind = .endOfFile := by
  cases text with
  | nil => exact .inr rfl
  | cons c rest =>
    have terminator : isLineTerminator c := by simpa [TokenKind.goesOn] using stops
    have noComment : mode.inComment = false :=
      Bool.eq_false_iff.mpr fun inside => List.cons_ne_nil _ _ (outside inside)
    rw [read_of_isLineTerminator noComment terminator]
    exact .inl rfl

theorem read_head? (mode : LexMode) (text : List Char) :
    (read mode text).1.text.head? = text.head? := by
  cases text with
  | nil => rfl
  | cons c rest =>
    have whole := congrArg List.head? (read_append mode (c :: rest))
    rwa [List.head?_append_of_ne_nil _ (read_text_ne_nil mode c rest)] at whole

end Lexeme

end ScriptSyntax
