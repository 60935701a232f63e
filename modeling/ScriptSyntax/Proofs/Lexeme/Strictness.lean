import ScriptSyntax.Lexeme.Reader
import Mathlib.Data.List.Nodup

/-! What strict code reads differently. A word reserved in strict code only is an identifier
elsewhere; its text is the same, and so is everything else. -/
namespace ScriptSyntax

namespace ReservedWord

/-- The words reserved in strict code only. -/
def strictOnly : List ReservedWord :=
  [implementsWord, interfaceWord, letWord, packageWord, privateWord, protectedWord, publicWord,
   staticWord, yieldWord]

theorem mem_strictOnly {word : ReservedWord} : word ∈ strictOnly ↔ word.isStrictOnly = true := by
  cases word <;> decide

theorem mem_startingWith {word : ReservedWord} {first : Char} :
    word ∈ startingWith first ↔ word.spelling.toList.head? = some first := by
  have listed : word ∈ alphabetical := by cases word <;> decide
  simp [startingWith, listed]

theorem spelling_injective : Function.Injective spelling := by
  have distinct : (all.map spelling).Nodup := by decide +kernel
  intro left right same
  have listed (word : ReservedWord) : word ∈ all := by cases word <;> decide
  exact List.inj_on_of_nodup_map distinct (listed left) (listed right) same

/-- Reading a spelling back gives the word that has it. -/
theorem ofSpelling?_eq_some {text : String} {word : ReservedWord} :
    ofSpelling? text = some word ↔ word.spelling = text := by
  unfold ofSpelling?
  constructor
  · intro found
    split at found
    · cases found
    · simpa using List.find?_some found
  · rintro rfl
    split
    · next empty => cases word <;> revert empty <;> decide
    · next first begins =>
      cases found : (startingWith first).find? fun other => other.spelling == word.spelling with
      | none => simpa using List.find?_eq_none.mp found word (mem_startingWith.mpr begins)
      | some other =>
        have same : other.spelling = word.spelling := by simpa using List.find?_some found
        rw [spelling_injective same]

theorem find?_strictOnly {text : String} {word : ReservedWord} :
    (strictOnly.find? fun reserved => reserved.spelling == text) = some word ↔
      word.isStrictOnly = true ∧ word.spelling = text := by
  constructor
  · intro found
    exact ⟨mem_strictOnly.mp (List.mem_of_find?_eq_some found),
      by simpa using List.find?_some found⟩
  · rintro ⟨reserved, rfl⟩
    cases found : strictOnly.find? fun other => other.spelling == word.spelling with
    | none => simpa using List.find?_eq_none.mp found word (mem_strictOnly.mpr reserved)
    | some other =>
      have same : other.spelling = word.spelling := by simpa using List.find?_some found
      rw [spelling_injective same]

end ReservedWord

namespace TokenKind

/-- The kind in strict code of what is of this kind, and spelled so, in other code. -/
def strictly (kind : TokenKind) (text : String) : TokenKind :=
  if kind = identifier then
    ((ReservedWord.strictOnly.find? fun reserved => reserved.spelling == text).map word).getD
      identifier
  else kind

variable {kind : TokenKind} {text : String}

theorem strictly_of_ne_identifier (other : kind ≠ identifier) (text : String) :
    kind.strictly text = kind :=
  if_neg other

/-- Only an identifier spelled as one of those words has another kind in strict code. -/
theorem strictly_cases (kind : TokenKind) (text : String) :
    kind.strictly text = kind ∨
      kind = identifier ∧ ∃ reserved : ReservedWord, reserved.isStrictOnly = true ∧
        reserved.spelling = text ∧ kind.strictly text = word reserved := by
  by_cases plain : kind = identifier
  · subst plain
    rw [strictly, if_pos rfl]
    cases found : ReservedWord.strictOnly.find? fun reserved => reserved.spelling == text with
    | none => exact .inl rfl
    | some reserved =>
      obtain ⟨only, spelled⟩ := ReservedWord.find?_strictOnly.mp found
      exact .inr ⟨rfl, reserved, only, spelled, rfl⟩
  · exact .inl (strictly_of_ne_identifier plain text)

theorem strictly_identifier_of_spelling {reserved : ReservedWord}
    (only : reserved.isStrictOnly = true) :
    identifier.strictly reserved.spelling = word reserved := by
  rw [strictly, if_pos rfl, ReservedWord.find?_strictOnly.mpr ⟨only, rfl⟩]
  rfl

theorem strictly_identifier_of_not_spelling
    (other : ∀ reserved : ReservedWord, reserved.isStrictOnly = true → reserved.spelling ≠ text) :
    identifier.strictly text = identifier := by
  rcases strictly_cases identifier text with same | ⟨-, reserved, only, spelled, -⟩
  · exact same
  · exact absurd spelled (other reserved only)

@[simp] theorem isTrivia_strictly (kind : TokenKind) (text : String) :
    (kind.strictly text).isTrivia = kind.isTrivia := by
  rcases strictly_cases kind text with same | ⟨rfl, reserved, -, -, same⟩
  · rw [same]
  · rw [same]
    rfl

/-- What ends an operand in one sort of code does so in the other. -/
theorem allowsRegexAfter_strictly (kind : TokenKind) (text : String) :
    allowsRegexAfter (some (kind.strictly text)) = allowsRegexAfter (some kind) := by
  rcases strictly_cases kind text with same | ⟨rfl, reserved, only, -, same⟩
  · rw [same]
  · rw [same]
    cases reserved <;> first | rfl | cases only

end TokenKind

namespace WordPart

/-- An escape shows in the text, and without one the text is what it stands for. -/
structure ShowsEscapes (part : WordPart) : Prop where
  plain : part.isEscaped = false → part.value = part.text
  escaped : part.isEscaped = true → '\\' ∈ part.text

namespace ShowsEscapes

variable {part : WordPart}

theorem after (shows_ : part.ShowsEscapes) (c : Char) :
    (part.after [c] c false).ShowsEscapes where
  plain unescaped := congrArg (c :: ·) (shows_.plain unescaped)
  escaped isEscaped := List.mem_cons_of_mem c (shows_.escaped isEscaped)

theorem of_backslash {text : List Char} (backslash : '\\' ∈ text) (part : WordPart) (c : Char) :
    (part.after text c true).ShowsEscapes where
  plain unescaped := by cases unescaped
  escaped _ := List.mem_append_left _ backslash

end ShowsEscapes

theorem head?_of_escaped? {test : Char → Bool} {text : List Char} {c : Char}
    (spelled : escaped? test text = some c) : text.head? = some '\\' := by
  unfold escaped? unicodeEscape? at spelled
  split at spelled
  · rfl
  · cases spelled

theorem read_showsEscapes (text : List Char) : (read text).ShowsEscapes := by
  fun_induction read text with
  | case1 => exact ⟨fun _ => rfl, fun isEscaped => by cases isEscaped⟩
  | case2 c rest part ih => exact ih.after c
  | case3 c rest _ decoded spelled ih =>
    obtain rfl : c = '\\' := Option.some.inj (head?_of_escaped? spelled)
    exact .of_backslash List.mem_cons_self _ decoded
  | case4 c rest => exact ⟨fun _ => rfl, fun isEscaped => by cases isEscaped⟩

theorem kind_strictly {part : WordPart} (shows_ : part.ShowsEscapes) :
    part.kind true = (part.kind false).strictly (String.ofList part.text) := by
  unfold kind
  cases isEscaped : part.isEscaped with
  | true =>
    have backslash := shows_.escaped isEscaped
    refine (TokenKind.strictly_identifier_of_not_spelling ?_).symm
    intro reserved _ spelled
    have inside : '\\' ∈ reserved.spelling.toList := by
      rw [spelled, String.toList_ofList]
      exact backslash
    revert inside
    cases reserved <;> decide
  | false =>
    rw [shows_.plain isEscaped]
    simp only [Bool.false_eq_true, if_false]
    cases found : ReservedWord.ofSpelling? (String.ofList part.text) with
    | none =>
      refine (TokenKind.strictly_identifier_of_not_spelling ?_).symm
      intro reserved _ spelled
      rw [ReservedWord.ofSpelling?_eq_some.mpr spelled] at found
      cases found
    | some reserved =>
      have spelled := ReservedWord.ofSpelling?_eq_some.mp found
      cases only : reserved.isStrictOnly with
      | true =>
        simp only [ReservedWord.isReserved, only, ← spelled, Bool.not_true, Bool.or_true,
          Bool.or_false, if_true, Bool.false_eq_true, if_false]
        exact (TokenKind.strictly_identifier_of_spelling only).symm
      | false =>
        simp only [ReservedWord.isReserved, only, Bool.not_false, Bool.true_or, if_true]
        rw [TokenKind.strictly_of_ne_identifier (by simp)]

end WordPart

namespace Lexeme

/-- What a lexeme of other code is in strict code. -/
def strictly (lexeme : Lexeme) : Lexeme :=
  { lexeme with kind := lexeme.kind.strictly (String.ofList lexeme.text) }

theorem strictly_of_ne_identifier {lexeme : Lexeme} (other : lexeme.kind ≠ .identifier) :
    lexeme.strictly = lexeme := by
  rw [strictly, TokenKind.strictly_of_ne_identifier other]

/-- A lexeme that is read alike in all code, and is no identifier. -/
def Indifferent (lexeme : Bool → Lexeme × List Char) : Prop :=
  ∀ strict, (lexeme strict).1.kind ≠ .identifier ∧ lexeme strict = lexeme false

theorem Indifferent.of_const {found : Lexeme × List Char} (other : found.1.kind ≠ .identifier) :
    Indifferent fun _ => found :=
  fun _ => ⟨other, rfl⟩

theorem slash_kind_ne_identifier (regex : Bool) (rest : List Char) :
    (slash regex rest).1.kind ≠ .identifier := by
  rcases slash_reads regex rest with same | ⟨body, -, same⟩ | ⟨-, reads⟩ | same
  · simp [same, lineComment, ofRun]
  · simp [same, blockComment]
  · obtain ⟨_, -, same⟩ := Option.map_eq_some_iff.mp reads
    simp [← same]
  · rw [same, mark]
    split <;> simp [ofLength, illegal]

/-- A word is told apart by its spelling; nothing else asks whether code is strict. -/
theorem read_word_or_indifferent (regex inComment : Bool) (text : List Char) :
    (∃ part : WordPart, part.ShowsEscapes ∧
      ∀ strict, read { strict, regex, inComment } text = part.toLexeme strict) ∨
    Indifferent fun strict => read { strict, regex, inComment } text := by
  cases text with
  | nil => exact .inr fun _ => ⟨by simp [read], rfl⟩
  | cons c rest =>
    simp only [read]
    split
    · exact .inr (.of_const (by simp [blockComment]))
    split
    · exact .inr (.of_const (by simp [ofLength]))
    split
    · exact .inr (.of_const (by simp [ofRun]))
    split
    · exact .inr (.of_const (by simp [lineEnds]))
    split
    · exact .inr (.of_const (by simp [stringLiteral]))
    split
    · exact .inr (.of_const (by simp [numeral]))
    split
    · exact .inr (.of_const (slash_kind_ne_identifier _ _))
    split
    · next backslash =>
      unfold escapedWord
      split
      · refine .inl ⟨_, .of_backslash ?_ _ _, fun _ => rfl⟩
        rw [beq_iff_eq.mp backslash]
        exact List.mem_cons_self
      · exact .inr (.of_const (by simp [illegal]))
    split
    · exact .inl ⟨_, (WordPart.read_showsEscapes rest).after c, fun _ => rfl⟩
    · exact .inr (.of_const (by unfold mark; split <;> simp [ofLength, illegal]))

/-- Strict code is read alike, but for the kind of a word reserved in it only. -/
theorem read_strict (regex inComment : Bool) (text : List Char) :
    let plain := read { strict := false, regex, inComment } text
    read { strict := true, regex, inComment } text = (plain.1.strictly, plain.2) := by
  intro plain
  rcases read_word_or_indifferent regex inComment text with ⟨part, shows_, word⟩ | indifferent
  · have here : plain = part.toLexeme false := word false
    rw [here, word true, WordPart.toLexeme, WordPart.kind_strictly shows_]
    rfl
  · obtain ⟨other, same⟩ := indifferent true
    have kind : plain.1.kind ≠ .identifier := by
      rw [same] at other
      exact other
    exact same.trans (by rw [strictly_of_ne_identifier kind])

theorem read_identifier_flaws {mode : LexMode} {text : List Char}
    (kind : (read mode text).1.kind = .identifier) : (read mode text).1.flaws = [] := by
  rcases read_word_or_indifferent mode.regex mode.inComment text with ⟨part, -, word⟩ | other
  · exact congrArg (·.1.flaws) (word mode.strict)
  · exact absurd kind (other mode.strict).1

end Lexeme

end ScriptSyntax
