import ScriptSyntax.Proofs.Lexeme.Lookahead

/-! Only a slash begins a comment or a regular expression, and only there does it matter
whether a regular expression may stand. -/
namespace ScriptSyntax

namespace Lexeme

/-- A lexeme that is neither a regular expression nor a block comment, and leaves no comment
open. -/
structure Ordinary (lexeme : Lexeme) : Prop where
  no_regex : lexeme.kind ≠ .regularExpression
  no_block : lexeme.kind ≠ .blockComment
  leaves_none : lexeme.endsInComment = false

theorem mark_ordinary (text : List Char) : (mark text).1.Ordinary := by
  unfold mark
  split <;> exact ⟨by simp [ofLength, illegal], by simp [ofLength, illegal], rfl⟩

theorem toLexeme_ordinary (part : WordPart) (strict : Bool) :
    (part.toLexeme strict).1.Ordinary := by
  unfold WordPart.toLexeme WordPart.kind
  dsimp only
  repeat' split
  all_goals exact ⟨by simp, by simp, rfl⟩

theorem escapedWord_ordinary (strict : Bool) (text : List Char) :
    (escapedWord strict text).1.Ordinary := by
  unfold escapedWord
  split
  · exact toLexeme_ordinary _ strict
  · exact ⟨by simp [illegal], by simp [illegal], rfl⟩

variable {mode : LexMode} {c : Char} {text rest : List Char}

theorem read_of_slash (outside : mode.inComment = false) (rest : List Char) :
    read mode ('/' :: rest) = slash mode.regex rest := by
  rw [read.eq_2]
  simp only [outside, Bool.false_eq_true, if_false]
  rfl

theorem read_of_inComment (inside : mode.inComment = true) (c : Char) (rest : List Char) :
    read mode (c :: rest) = blockComment [] (c :: rest) := by
  rw [read.eq_2, if_pos inside]

/-- What no slash begins is neither comment nor regular expression, with or without leave
to begin one. -/
theorem read_elsewhere (outside : mode.inComment = false) (other : c ≠ '/') (rest : List Char)
    (regex : Bool) :
    (read mode (c :: rest)).1.Ordinary ∧
      read { mode with regex } (c :: rest) = read mode (c :: rest) := by
  simp only [read.eq_2, outside, Bool.false_eq_true, if_false, beq_eq_false_iff_ne.mpr other]
  refine ⟨?_, trivial⟩
  split
  · exact ⟨by simp [ofLength], by simp [ofLength], rfl⟩
  split
  · exact ⟨by simp [ofRun], by simp [ofRun], rfl⟩
  split
  · exact ⟨by simp [lineEnds], by simp [lineEnds], rfl⟩
  split
  · exact ⟨by simp [stringLiteral], by simp [stringLiteral], rfl⟩
  split
  · exact ⟨by simp [numeral], by simp [numeral], rfl⟩
  split
  · exact escapedWord_ordinary _ _
  split
  · exact toLexeme_ordinary _ _
  · exact mark_ordinary _

theorem regularExpression?_kind {found : Lexeme × List Char}
    (reads : regularExpression? text = some found) :
    found.1.kind = .regularExpression ∧ found.1.endsInComment = false := by
  obtain ⟨⟨pattern, after⟩, -, rfl⟩ := Option.map_eq_some_iff.mp reads
  exact ⟨rfl, rfl⟩

/-- A slash begins a comment of either sort, a regular expression or an operator. -/
theorem slash_cases (regex : Bool) (rest : List Char) :
    (slash regex rest).1.Ordinary ∨
    (∃ body, rest = '*' :: body ∧ slash regex rest = blockComment ['/', '*'] body) ∨
    (regex = true ∧ regularExpression? rest = some (slash regex rest)) := by
  rcases slash_reads regex rest with same | comment | pattern | same
  · rw [same]
    exact .inl ⟨by simp [lineComment, ofRun], by simp [lineComment, ofRun], rfl⟩
  · exact .inr (.inl comment)
  · exact .inr (.inr pattern)
  · rw [same]
    exact .inl (mark_ordinary _)

/-- What is read outside comments is ordinary, a block comment from its opening on, or a
regular expression where one may stand. -/
theorem read_cases (outside : mode.inComment = false) (text : List Char) :
    (read mode text).1.Ordinary ∨
    (∃ body, text = '/' :: '*' :: body ∧ read mode text = blockComment ['/', '*'] body) ∨
    (mode.regex = true ∧ ∃ rest, text = '/' :: rest ∧
      regularExpression? rest = some (read mode text)) := by
  cases text with
  | nil => exact .inl ⟨by simp [read], by simp [read], outside⟩
  | cons c rest =>
    by_cases slashes : c = '/'
    · subst slashes
      rw [read_of_slash outside]
      rcases slash_cases mode.regex rest with ordinary | ⟨body, rfl, same⟩ | ⟨allowed, reads⟩
      · exact .inl ordinary
      · exact .inr (.inl ⟨body, rfl, same⟩)
      · exact .inr (.inr ⟨allowed, rest, rfl, reads⟩)
    · exact .inl (read_elsewhere outside slashes rest mode.regex).1

theorem read_blockComment (outside : mode.inComment = false)
    (kind : (read mode text).1.kind = .blockComment) :
    ∃ body, text = '/' :: '*' :: body ∧ read mode text = blockComment ['/', '*'] body := by
  rcases read_cases outside text with ordinary | comment | ⟨-, rest, -, reads⟩
  · exact absurd kind ordinary.no_block
  · exact comment
  · rw [(regularExpression?_kind reads).1] at kind
    cases kind

/-- A comment is left open only where it began, and goes to the end of input. -/
theorem read_endsInComment (outside : mode.inComment = false)
    (open_ : (read mode text).1.endsInComment) :
    ∃ body, text = '/' :: '*' :: body ∧ (commentBody 2 body).isClosed = false := by
  rcases read_cases outside text with ordinary | ⟨body, rfl, same⟩ | ⟨-, rest, -, reads⟩
  · rw [ordinary.leaves_none] at open_
    cases open_
  · rw [same] at open_
    exact ⟨body, rfl, by simpa [blockComment] using open_⟩
  · rw [(regularExpression?_kind reads).2] at open_
    cases open_

/-- Only the end of input leaves a comment open. -/
theorem read_rest_of_open (open_ : (read mode text).1.endsInComment) :
    (read mode text).2 = [] := by
  have comment {opening body : List Char} (same : read mode text = blockComment opening body) :
      (read mode text).2 = [] := by
    rw [same] at open_ ⊢
    exact commentBody_rest_of_open (by simpa [blockComment] using open_)
  cases inside : mode.inComment with
  | true =>
    cases text with
    | nil => rfl
    | cons c rest => exact comment (read_of_inComment inside c rest)
  | false =>
    rcases read_cases inside text with ordinary | ⟨body, -, same⟩ | ⟨-, rest, -, reads⟩
    · rw [ordinary.leaves_none] at open_
      cases open_
    · exact comment same
    · rw [(regularExpression?_kind reads).2] at open_
      cases open_

theorem read_regularExpression (kind : (read mode text).1.kind = .regularExpression) :
    mode.regex = true ∧ ∃ rest, text = '/' :: rest ∧
      regularExpression? rest = some (read mode text) := by
  cases inside : mode.inComment with
  | true =>
    cases text with
    | nil => cases kind
    | cons c rest =>
      rw [read_of_inComment inside] at kind
      cases kind
  | false =>
    rcases read_cases inside text with ordinary | ⟨body, -, same⟩ | found
    · exact absurd kind ordinary.no_regex
    · rw [same] at kind
      cases kind
    · exact found

/-- A regular expression stands on one line. -/
theorem read_regularExpression_plain (kind : (read mode text).1.kind = .regularExpression) :
    Plain (read mode text).1.text := by
  obtain ⟨-, rest, -, reads⟩ := read_regularExpression kind
  exact regularExpression?_plain reads

theorem slash_without_regex {regex : Bool}
    (other : (slash regex rest).1.kind ≠ .regularExpression) :
    slash false rest = slash regex rest := by
  cases regex with
  | false => rfl
  | true =>
    revert other
    unfold slash
    split
    · exact fun _ => rfl
    · exact fun _ => rfl
    · intro other
      rw [if_pos rfl] at other ⊢
      cases reads : regularExpression? rest with
      | none => rfl
      | some found =>
        rw [reads] at other
        exact absurd (regularExpression?_kind reads).1 other

/-- Without leave to begin a regular expression anything else is read all the same. -/
theorem read_without_regex (other : (read mode text).1.kind ≠ .regularExpression) :
    read { mode with regex := false } text = read mode text := by
  cases text with
  | nil => rfl
  | cons c rest =>
    let without : LexMode := { mode with regex := false }
    by_cases inside : mode.inComment = true
    · have same : without.inComment = true := inside
      exact (read_of_inComment same c rest).trans (read_of_inComment inside c rest).symm
    have outside : mode.inComment = false := Bool.eq_false_iff.mpr inside
    by_cases slashes : c = '/'
    · subst slashes
      have same : without.inComment = false := outside
      rw [read_of_slash outside] at other ⊢
      exact (read_of_slash same rest).trans (slash_without_regex other)
    · exact (read_elsewhere outside slashes rest false).2

theorem slash_operator {regex : Bool}
    (kind : (slash regex rest).1.kind = .regularExpression) :
    ∃ mark, (slash false rest).1.kind = .punctuator mark := by
  revert kind
  unfold slash
  split
  · intro kind
    cases kind
  · intro kind
    cases kind
  · exact fun _ => ⟨_, rfl⟩

/-- Without leave the slash of a regular expression is an operator. -/
theorem read_operator (kind : (read mode text).1.kind = .regularExpression) :
    ∃ mark, (read { mode with regex := false } text).1.kind = .punctuator mark := by
  obtain ⟨-, rest, rfl, -⟩ := read_regularExpression kind
  let without : LexMode := { mode with regex := false }
  have outside : mode.inComment = false := by
    by_contra inside
    rw [read_of_inComment (by simpa using inside)] at kind
    cases kind
  have same : without.inComment = false := outside
  rw [read_of_slash outside] at kind
  obtain ⟨mark, found⟩ := slash_operator kind
  exact ⟨mark, (congrArg (·.1.kind) (read_of_slash same rest)).trans found⟩

end Lexeme

end ScriptSyntax
