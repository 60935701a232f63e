import ScriptSyntax.Proofs.Lexeme.Marks
import ScriptSyntax.Proofs.Lexeme.Slashes
import ScriptSyntax.Proofs.Lexeme.Words

/-! The sorts of lexemes. Words are read from characters of identifiers and from escapes, marks
where nothing else begins; no other lexeme has a fixed text. -/
namespace ScriptSyntax

namespace Lexeme

variable {mode : LexMode} {c : Char}

/-- What a character of an identifier begins. -/
theorem read_of_isIdentifierPart (outside : mode.inComment = false) (part : isIdentifierPart c)
    (rest : List Char) :
    read mode (c :: rest) =
      if isDecimalDigit c then numeral (c :: rest)
      else if isIdentifierStart c then word mode.strict c rest
      else mark (c :: rest) := by
  have other {d : Char} (apart : isIdentifierPart d = false) : c ≠ d := by
    rintro rfl
    rw [apart] at part
    cases part
  have null : c ≠ '\x00' := other (by decide)
  have double : c ≠ '"' := other (by decide)
  have single : c ≠ '\'' := other (by decide)
  have point : c ≠ '.' := other (by decide)
  have slash : c ≠ '/' := other (by decide)
  have backslash : c ≠ '\\' := other (by decide)
  obtain ⟨blank, terminator⟩ := not_space_of_isIdentifierPart part
  simp [read.eq_2, outside, blank, terminator, null, double, single, point, slash, backslash]

theorem read_of_isIdentifierStart (outside : mode.inComment = false) (starts : isIdentifierStart c)
    (rest : List Char) : read mode (c :: rest) = word mode.strict c rest := by
  have noDigit : ¬ isDecimalDigit c := by simp [isDecimalDigit_of_isIdentifierStart starts]
  rw [read_of_isIdentifierPart outside (isIdentifierPart_of_isIdentifierStart starts),
    if_neg noDigit, if_pos starts]

/-- A text that is a name is read as a whole. -/
theorem read_of_spellsName {text : List Char} (outside : mode.inComment = false)
    (name : SpellsName text) : read mode text = (WordPart.plain text).toLexeme mode.strict := by
  obtain ⟨first, rest, rfl, starts, parts⟩ := name
  rw [read_of_isIdentifierStart outside starts, word, WordPart.read_of_parts parts]
  rfl

/-- A lexeme that has no fixed text, and is neither an error nor an identifier. -/
structure Unspelled (lexeme : Lexeme) : Prop where
  no_text : lexeme.kind.text? = none
  no_error : lexeme.kind ≠ .error
  no_name : lexeme.kind ≠ .identifier

/-- Nothing that begins with a backslash is a mark. -/
theorem illegal_eq_mark (rest : List Char) : illegal ('\\' :: rest) = mark ('\\' :: rest) := rfl

theorem slash_unspelled_or_mark (regex : Bool) (rest : List Char) :
    (slash regex rest).1.Unspelled ∨ slash regex rest = mark ('/' :: rest) := by
  rcases slash_reads regex rest with same | ⟨body, -, same⟩ | ⟨-, reads⟩ | same
  · rw [same]
    exact .inl ⟨rfl, by simp [lineComment, ofRun], by simp [lineComment, ofRun]⟩
  · rw [same]
    exact .inl ⟨rfl, by simp [blockComment], by simp [blockComment]⟩
  · have kind := (regularExpression?_kind reads).1
    exact .inl ⟨by rw [kind]; rfl, by simp [kind], by simp [kind]⟩
  · exact .inr same

/-- A lexeme is a name or a mark, or it has no fixed text. -/
theorem read_sorts (mode : LexMode) (text : List Char) :
    (read mode text).1.Unspelled ∨
    (∃ part : WordPart, part.IsName ∧ read mode text = part.toLexeme mode.strict) ∨
    read mode text = mark text := by
  cases text with
  | nil => exact .inl ⟨rfl, by simp [read], by simp [read]⟩
  | cons c rest =>
    rw [read.eq_2]
    split
    · exact .inl ⟨rfl, by simp [blockComment], by simp [blockComment]⟩
    split
    · exact .inl ⟨rfl, by simp [ofLength], by simp [ofLength]⟩
    split
    · exact .inl ⟨rfl, by simp [ofRun], by simp [ofRun]⟩
    split
    · exact .inl ⟨rfl, by simp [lineEnds], by simp [lineEnds]⟩
    split
    · exact .inl ⟨rfl, by simp [stringLiteral], by simp [stringLiteral]⟩
    split
    · exact .inl ⟨rfl, by simp [numeral], by simp [numeral]⟩
    split
    · next slashes =>
      obtain rfl := beq_iff_eq.mp slashes
      exact (slash_unspelled_or_mark mode.regex rest).imp_right .inr
    split
    · next backslash =>
      obtain rfl := beq_iff_eq.mp backslash
      unfold escapedWord
      split
      · next first spelled =>
        refine .inr (.inl ⟨_, ⟨⟨first, _, rfl, WordPart.of_escaped? spelled,
          WordPart.read_value _⟩, .of_backslash List.mem_cons_self _ first⟩, rfl⟩)
      · exact .inr (.inr (illegal_eq_mark rest))
    split
    · next starts =>
      exact .inr (.inl ⟨_, ⟨⟨c, _, rfl, starts, WordPart.read_value rest⟩,
        (WordPart.read_showsEscapes rest).after c⟩, rfl⟩)
    · exact .inr (.inr rfl)

/-- Identifiers and reserved words are names. -/
theorem exists_name {mode : LexMode} {text : List Char}
    (named : (read mode text).1.kind = .identifier ∨
      ∃ word, (read mode text).1.kind = .word word) :
    ∃ part : WordPart, part.IsName ∧ read mode text = part.toLexeme mode.strict := by
  rcases read_sorts mode text with unspelled | name | same
  · rcases named with kind | ⟨word, kind⟩
    · exact absurd kind unspelled.no_name
    · have none := unspelled.no_text
      rw [kind] at none
      cases none
  · exact name
  · rw [same, mark] at named
    split at named <;> rcases named with kind | ⟨word, kind⟩ <;> cases kind

end Lexeme

/-- The kind of a lexeme suits the text that it begins: what has a fixed text is that text, a
mark is the longest there, and an error stands where there is no mark. -/
structure Lexeme.Fits (lexeme : Lexeme) (text : List Char) : Prop where
  fixed : ∀ spelling, lexeme.kind.text? = some spelling → lexeme.text = spelling.toList
  longest : ∀ mark, lexeme.kind = .punctuator mark → mark.IsLongest text
  no_mark : lexeme.kind = .error → ∀ mark : Punctuator, ¬ mark.spelling.toList <+: text

theorem Lexeme.mark_fits (text : List Char) : (mark text).1.Fits text := by
  unfold mark
  split
  · next found some =>
    have spells := Punctuator.spelling_isPrefix some
    refine ⟨?_, ?_, fun error => by cases error⟩
    · intro spelling fixed
      obtain rfl : found.spelling = spelling := Option.some.inj fixed
      rw [List.prefix_iff_eq_take, String.length_toList] at spells
      exact spells.symm
    · intro mark kind
      obtain rfl : found = mark := TokenKind.punctuator.inj kind
      exact Punctuator.isLongest_of_found some
  · next none =>
    refine ⟨?_, ?_, fun _ => Punctuator.not_isPrefix_of_none none⟩
    · intro spelling fixed
      cases fixed
    · intro mark kind
      cases kind

theorem WordPart.toLexeme_fits {part : WordPart} (name : part.IsName) (strict : Bool)
    (text : List Char) : (part.toLexeme strict).1.Fits text := by
  have same : (part.toLexeme strict).1.kind = part.kind strict := rfl
  rcases part.kind_cases strict with kind | ⟨reserved, kind⟩
  · exact ⟨by simp [same, kind, TokenKind.text?], by simp [same, kind], by simp [same, kind]⟩
  · refine ⟨?_, by simp [same, kind], by simp [same, kind]⟩
    intro spelling fixed
    rw [same, kind] at fixed
    obtain rfl : reserved.spelling = spelling := Option.some.inj fixed
    exact name.text_eq_spelling kind

theorem Lexeme.Unspelled.fits {lexeme : Lexeme} (unspelled : lexeme.Unspelled)
    (text : List Char) : lexeme.Fits text := by
  refine ⟨?_, ?_, fun error => absurd error unspelled.no_error⟩
  · intro spelling fixed
    rw [unspelled.no_text] at fixed
    cases fixed
  · intro mark kind
    have none := unspelled.no_text
    rw [kind] at none
    cases none

theorem Lexeme.read_fits (mode : LexMode) (text : List Char) : (read mode text).1.Fits text := by
  rcases read_sorts mode text with unspelled | ⟨part, name, same⟩ | same
  · exact unspelled.fits text
  · rw [same]
    exact WordPart.toLexeme_fits name mode.strict text
  · rw [same]
    exact mark_fits text

end ScriptSyntax
