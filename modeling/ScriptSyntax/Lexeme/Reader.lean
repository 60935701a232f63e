import ScriptSyntax.Lexeme.Mark
import ScriptSyntax.Lexeme.Numeral
import ScriptSyntax.Lexeme.RegularExpression
import ScriptSyntax.Lexeme.StringLiteral
import ScriptSyntax.Lexeme.Trivia
import ScriptSyntax.Lexeme.Word

/-! The lexeme at the head of a text. -/
namespace ScriptSyntax

/-- What a reader must know besides the text. -/
structure LexMode where
  /-- The words reserved only in strict code are reserved. -/
  strict : Bool
  /-- A slash may begin a regular expression. -/
  regex : Bool
  /-- The text begins inside a block comment. -/
  inComment : Bool
  deriving DecidableEq, Repr

namespace Lexeme

/-- A slash, with `rest` after it, begins a comment, a regular expression where one may
stand, or an operator. -/
def slash (regex : Bool) (rest : List Char) : Lexeme × List Char :=
  match rest with
  | '/' :: _ => lineComment ('/' :: rest)
  | '*' :: rest => blockComment ['/', '*'] rest
  | _ =>
    match if regex then regularExpression? rest else none with
    | some found => found
    | none => mark ('/' :: rest)

/-- The lexeme at the head of a text, and the text after it. The end of input leaves
an open comment open; a null character at the very end counts as the end. -/
def read (mode : LexMode) (text : List Char) : Lexeme × List Char :=
  match text with
  | [] => ({ kind := .endOfFile, text := [], endsInComment := mode.inComment }, [])
  | c :: rest =>
    if mode.inComment then blockComment [] text
    else if c == '\x00' && rest.isEmpty then ofLength .endOfFile 1 text
    else if isBlank c then ofRun .whiteSpace isBlank text
    else if isLineTerminator c then lineEnds text
    else if c == '"' || c == '\'' then stringLiteral c rest
    else if isDecimalDigit c || (c == '.' && rest.head?.any isDecimalDigit) then numeral text
    else if c == '/' then slash mode.regex rest
    else if c == '\\' then escapedWord mode.strict text
    else if isIdentifierStart c then word mode.strict c rest
    else mark text

/-- A slash begins a comment of either sort, a regular expression where one may stand, or an
operator. -/
theorem slash_reads (regex : Bool) (rest : List Char) :
    slash regex rest = lineComment ('/' :: rest) ∨
    (∃ body, rest = '*' :: body ∧ slash regex rest = blockComment ['/', '*'] body) ∨
    (regex = true ∧ regularExpression? rest = some (slash regex rest)) ∨
    slash regex rest = mark ('/' :: rest) := by
  unfold slash
  split
  · exact .inl rfl
  · next body => exact .inr (.inl ⟨body, rfl, rfl⟩)
  · split
    · next found reads =>
      split at reads
      · next allowed => exact .inr (.inr (.inl ⟨allowed, reads⟩))
      · cases reads
    · exact .inr (.inr (.inr rfl))

@[simp] theorem slash_append (regex : Bool) (rest : List Char) :
    (slash regex rest).1.text ++ (slash regex rest).2 = '/' :: rest := by
  rcases slash_reads regex rest with same | ⟨body, rfl, same⟩ | ⟨-, reads⟩ | same
  · simp [same, lineComment]
  · simp [same]
  · exact regularExpression?_append reads
  · simp [same]

/-- Nothing is lost: a lexeme and what follows it make up the text. -/
theorem read_append (mode : LexMode) (text : List Char) :
    (read mode text).1.text ++ (read mode text).2 = text := by
  unfold read
  split
  · rfl
  · repeat' split
    all_goals simp_all

theorem slash_text_ne_nil (regex : Bool) (rest : List Char) :
    (slash regex rest).1.text ≠ [] := by
  rcases slash_reads regex rest with same | ⟨body, -, same⟩ | ⟨-, reads⟩ | same
  · simp [same, lineComment, ofRun, show isLineTerminator '/' = false by decide]
  · simp [same, blockComment]
  · obtain ⟨_, -, same⟩ := Option.map_eq_some_iff.mp reads
    simp [← same]
  · rw [same]
    exact mark_text_ne_nil _ _

/-- A lexeme takes at least one character of a text that has any. -/
theorem read_text_ne_nil (mode : LexMode) (c : Char) (rest : List Char) :
    (read mode (c :: rest)).1.text ≠ [] := by
  unfold read
  dsimp only
  split
  · simpa [blockComment] using commentBody_text_ne_nil 0 c rest
  split
  · simp [ofLength]
  split
  · simp_all [ofRun]
  split
  · exact lineBreakRun_text_ne_nil 0 rest ‹_›
  split
  · simp [stringLiteral]
  split
  · next starts =>
    apply numeral_text_ne_nil
    simp only [Bool.or_eq_true, Bool.and_eq_true] at starts ⊢
    exact starts.imp id And.left
  split
  · exact slash_text_ne_nil _ _
  split
  · unfold escapedWord
    split <;> simp [WordPart.toLexeme, WordPart.after, illegal, unicodeEscapeLength]
  split
  · simp [word, WordPart.toLexeme, WordPart.after]
  · exact mark_text_ne_nil _ _

/-- What follows a lexeme is shorter than the text, unless there was no text. -/
theorem read_rest_length_lt (mode : LexMode) {text : List Char} (nonempty : text ≠ []) :
    (read mode text).2.length < text.length := by
  obtain ⟨c, rest, rfl⟩ := List.exists_cons_of_ne_nil nonempty
  have whole := congrArg List.length (read_append mode (c :: rest))
  have taken := List.length_pos_iff.mpr (read_text_ne_nil mode c rest)
  simp only [List.length_append] at whole
  omega

theorem mark_kind_ne_endOfFile (text : List Char) : (mark text).1.kind ≠ .endOfFile := by
  unfold mark
  split <;> simp [ofLength, illegal]

theorem toLexeme_kind_ne_endOfFile (part : WordPart) (strict : Bool) :
    (part.toLexeme strict).1.kind ≠ .endOfFile := by
  unfold WordPart.toLexeme WordPart.kind
  dsimp only
  repeat' split
  all_goals simp

theorem escapedWord_kind_ne_endOfFile (strict : Bool) (text : List Char) :
    (escapedWord strict text).1.kind ≠ .endOfFile := by
  unfold escapedWord
  split
  · exact toLexeme_kind_ne_endOfFile _ strict
  · simp [illegal]

theorem slash_kind_ne_endOfFile (regex : Bool) (rest : List Char) :
    (slash regex rest).1.kind ≠ .endOfFile := by
  rcases slash_reads regex rest with same | ⟨body, -, same⟩ | ⟨-, reads⟩ | same
  · simp [same, lineComment, ofRun]
  · simp [same, blockComment]
  · obtain ⟨_, -, same⟩ := Option.map_eq_some_iff.mp reads
    simp [← same]
  · rw [same]
    exact mark_kind_ne_endOfFile _

/-- Only the end of input and a null character just before it are read as the end. -/
theorem read_endOfFile {mode : LexMode} {text : List Char}
    (ended : (read mode text).1.kind = .endOfFile) : (read mode text).2 = [] := by
  revert ended
  unfold read
  split
  · exact fun _ => rfl
  · next c rest =>
    split
    · simp [blockComment]
    split
    · next null =>
      obtain ⟨-, empty⟩ := Bool.and_eq_true_iff.mp null
      simp [ofLength, List.isEmpty_iff.mp empty]
    split
    · simp [ofRun]
    split
    · simp [lineEnds]
    split
    · simp [stringLiteral]
    split
    · simp [numeral]
    split
    · exact fun ended => absurd ended (slash_kind_ne_endOfFile _ _)
    split
    · exact fun ended => absurd ended (escapedWord_kind_ne_endOfFile _ _)
    split
    · exact fun ended => absurd ended (toLexeme_kind_ne_endOfFile _ _)
    · exact fun ended => absurd ended (mark_kind_ne_endOfFile _)

end Lexeme

end ScriptSyntax
