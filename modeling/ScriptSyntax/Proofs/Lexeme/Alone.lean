import ScriptSyntax.Proofs.Lexeme.Pieces
import ScriptSyntax.Proofs.Lexeme.Slashes

/-! A lexeme alone. From the text of a lexeme and nothing else the same lexeme is read. -/
namespace ScriptSyntax

/-- A string cut off at once stands before a line terminator or at the end of input. -/
theorem stringBody_text_eq_nil {quote : Char} {offset : Nat} {text : List Char}
    (empty : (stringBody quote offset text).text = []) :
    (stringBody quote offset text).rest = text ∧ ∀ c ∈ text.head?, isLineTerminator c := by
  fun_induction stringBody quote offset text with
  | case1 => exact ⟨rfl, by simp⟩
  | case2 | case4 | case5 => cases empty
  | case3 offset c rest open_ terminator => exact ⟨rfl, by simpa using terminator⟩

/-- An escape is the same before what the string goes on with, and nothing more. -/
theorem escape_alone (quote : Char) (offset : Nat) (text : List Char) :
    Escape.read (text.take (Escape.read text).width ++
      (stringBody quote offset (text.drop (Escape.read text).width)).text) = Escape.read text := by
  have split := stringBody_append quote offset (text.drop (Escape.read text).width)
  have cutOff (empty : (stringBody quote offset (text.drop (Escape.read text).width)).text = []) :=
    stringBody_text_eq_nil empty
  generalize stringBody quote offset (text.drop (Escape.read text).width) = behind at *
  have whole : text.take (Escape.read text).width ++ behind.text ++ behind.rest = text := by
    rw [List.append_assoc, split, List.take_append_drop]
  have length : (text.take (Escape.read text).width).length = (Escape.read text).width :=
    List.length_take_of_le (Escape.read_spelled text).width_le
  have same := Escape.read_piece (text.take (Escape.read text).width ++ behind.text) behind.rest
  rw [whole, List.length_append, length] at same
  apply same (Nat.le_add_right _ _)
  -- an escape alone in its string is followed by what cut that string off, which is no digit
  intro single
  have some : (Escape.read text).width ≠ 0 := by
    cases text with
    | nil =>
      rw [(List.append_eq_nil_iff.mp split).1] at single
      cases single
    | cons c rest => exact Nat.pos_iff_ne_zero.mp (Escape.read_width_pos c rest)
  obtain ⟨rest, terminators⟩ := cutOff (List.length_eq_zero_iff.mp (by omega))
  rw [rest]
  cases next : (text.drop (Escape.read text).width).head? with
  | none => rfl
  | some c =>
    have fence : isFence c := by simp [isFence, terminators c next]
    exact isDecimalDigit_stops c fence

/-- Alone a string goes as far, and says the same. -/
theorem stringBody_alone (quote : Char) (offset : Nat) (text : List Char) :
    stringBody quote offset (stringBody quote offset text).text =
      { stringBody quote offset text with rest := [] } := by
  fun_induction stringBody quote offset text with
  | case1 offset => simp [stringBody, Body.cut]
  | case2 offset c rest closes => simp [stringBody, Body.close, closes]
  | case3 offset c rest open_ terminator => simp [stringBody, Body.cut]
  | case4 offset c rest open_ plain backslash escape stop ih =>
    have same : Escape.read (rest.take escape.width ++
        (stringBody quote stop (rest.drop escape.width)).text) = escape :=
      escape_alone quote stop rest
    have length : (rest.take escape.width).length = escape.width :=
      List.length_take_of_le (Escape.read_spelled rest).width_le
    simp only [Body.after, List.cons_append]
    rw [stringBody, if_neg open_, if_neg plain, if_pos backslash]
    simp only [same, List.drop_left' length, List.take_left' length]
    rw [show offset + 1 + escape.width = stop from rfl, ih]
    rfl
  | case5 offset c rest open_ plain literal ih =>
    simp only [Body.after, List.cons_append, List.nil_append]
    rw [stringBody, if_neg open_, if_neg plain, if_neg literal, ih]
    rfl

theorem commentBody_alone (offset : Nat) (text : List Char) :
    commentBody offset (commentBody offset text).text =
      { commentBody offset text with rest := [] } := by
  cases closed : (commentBody offset text).isClosed with
  | true => simpa using commentBody_delimited closed []
  | false =>
    have whole := commentBody_append offset text
    have none := commentBody_rest_of_open closed
    rw [none, List.append_nil] at whole
    rw [whole, ← none]

theorem lineBreakRun_alone (offset : Nat) (text : List Char) :
    lineBreakRun offset (lineBreakRun offset text).text =
      { lineBreakRun offset text with rest := [] } := by
  fun_induction lineBreakRun offset text with
  | case1 => rfl
  | case2 offset rest ih =>
    simp only [Body.after, List.cons_append, List.nil_append, lineBreakRun] at ih ⊢
    rw [ih]
  | case3 offset c rest whole terminator ih =>
    have noBreak : ∀ after, c = '\r' → (lineBreakRun (offset + 1) rest).text = '\n' :: after →
        False := by
      intro after carriage line
      have split := lineBreakRun_append (offset + 1) rest
      rw [line] at split
      exact whole _ carriage split.symm
    simp only [Body.after, List.cons_append, List.nil_append]
    rw [lineBreakRun.eq_3 _ _ _ noBreak, if_pos terminator, ih]
    rfl
  | case4 offset c rest whole plain => rfl

/-- Every mark is read from its spelling. -/
theorem Punctuator.ofText?_spelling (mark : Punctuator) :
    ofText? mark.spelling.toList = some mark := by
  cases mark <;> rfl

/-- Whether a character begins a mark does not depend on what comes behind it. -/
theorem Punctuator.ofText?_eq_none {c : Char} {rest : List Char}
    (none : ofText? (c :: rest) = none) (other : List Char) : ofText? (c :: other) = .none := by
  rw [ofText?.eq_def] at none ⊢
  dsimp only at none ⊢
  split at none
  all_goals try cases none
  simp_all

namespace Lexeme

/-- The lexeme that `reader` takes off `text` is what it takes off the text of that lexeme. -/
def StandsAlone (reader : List Char → Lexeme × List Char) (text : List Char) : Prop :=
  reader (reader text).1.text = ((reader text).1, [])

theorem ofRun_alone (kind : TokenKind) (test : Char → Bool) (text : List Char) :
    StandsAlone (ofRun kind test) text := by
  have all : ∀ c ∈ text.takeWhile test, test c := List.all_eq_true.mp List.all_takeWhile
  simp only [StandsAlone, ofRun, List.takeWhile_idem, List.dropWhile_eq_nil_iff.mpr all]

theorem lineEnds_alone (text : List Char) : StandsAlone lineEnds text := by
  simp only [StandsAlone, lineEnds, lineBreakRun_alone]

theorem blockComment_alone (opening text : List Char) :
    blockComment opening (commentBody opening.length text).text =
      ((blockComment opening text).1, []) := by
  simp only [blockComment, commentBody_alone]

theorem stringLiteral_alone (quote : Char) (text : List Char) :
    stringLiteral quote (stringBody quote 1 text).text = ((stringLiteral quote text).1, []) := by
  simp only [stringLiteral, stringBody_alone]

theorem word_alone (strict : Bool) (first : Char) (rest : List Char) :
    word strict first (WordPart.read rest).text = ((word strict first rest).1, []) := by
  simp only [word, WordPart.read_alone]
  rfl

theorem illegal_alone (text : List Char) : StandsAlone illegal text := by
  simp [StandsAlone, illegal, List.take_take]

theorem escapedWord_alone (strict : Bool) (text : List Char) :
    StandsAlone (escapedWord strict) text := by
  unfold StandsAlone
  cases spelled : WordPart.escaped? isIdentifierStart text with
  | none =>
    have short : WordPart.escaped? isIdentifierStart (text.take 1) = .none := by
      by_contra some
      obtain ⟨c, found⟩ := Option.ne_none_iff_exists'.mp some
      have room := (WordPart.escaped?_free found).1.trans (List.length_take_le 1 text)
      exact absurd room (by decide)
    have same : escapedWord strict text = illegal text := by rw [escapedWord, spelled]
    have single : escapedWord strict (text.take 1) = illegal (text.take 1) := by
      rw [escapedWord, short]
    rw [same]
    exact single.trans (illegal_alone text)
  | some first =>
    have enough := (WordPart.escaped?_free spelled).1
    have length := List.length_take_of_le enough
    have six : unicodeEscapeLength ≤ (text.take unicodeEscapeLength).length := length.ge
    have whole := WordPart.escaped?_piece isIdentifierStart six (text.drop unicodeEscapeLength)
    rw [List.take_append_drop, spelled] at whole
    have alone (more : List Char) : WordPart.escaped? isIdentifierStart
        (text.take unicodeEscapeLength ++ more) = some first :=
      (WordPart.escaped?_piece isIdentifierStart six more).trans whole.symm
    simp only [escapedWord, spelled, WordPart.toLexeme, WordPart.after]
    rw [alone]
    simp only [List.drop_left' length, List.take_left' length, WordPart.read_alone]
    rfl

theorem mark_alone (c : Char) (rest : List Char) : StandsAlone mark (c :: rest) := by
  cases found : Punctuator.ofText? (c :: rest) with
  | none =>
    have alone : Punctuator.ofText? ((c :: rest).take 1) = .none :=
      Punctuator.ofText?_eq_none found []
    have same : mark (c :: rest) = illegal (c :: rest) := by rw [mark, found]
    have single : mark ((c :: rest).take 1) = illegal ((c :: rest).take 1) := by rw [mark, alone]
    rw [StandsAlone, same]
    exact single.trans (illegal_alone (c :: rest))
  | some mark =>
    have spells := Punctuator.spelling_isPrefix found
    have text : (c :: rest).take mark.spelling.length = mark.spelling.toList := by
      rw [← String.length_toList]
      exact (List.prefix_iff_eq_take.mp spells).symm
    simp only [StandsAlone, Lexeme.mark, found, ofLength, text, Punctuator.ofText?_spelling]
    rw [← String.length_toList, List.take_length, List.drop_length]

theorem regularExpression?_alone {text : List Char} {found : Lexeme × List Char}
    (reads : regularExpression? text = some found) :
    ∃ inner, found.1.text = '/' :: inner ∧ regularExpression? inner = some (found.1, []) := by
  obtain ⟨⟨pattern, after⟩, body, rfl⟩ := Option.map_eq_some_iff.mp reads
  refine ⟨pattern ++ '/' :: after.takeWhile isIdentifierPart, rfl, ?_⟩
  have all : ∀ c ∈ after.takeWhile isIdentifierPart, isIdentifierPart c :=
    List.all_eq_true.mp List.all_takeWhile
  rw [regularExpression?, patternBody?_delimited body, Option.map_some]
  simp only [List.takeWhile_idem, List.dropWhile_eq_nil_iff.mpr all]

/-- The operators that a slash begins are read from their own text wherever a regular
expression may stand. -/
theorem slash_alone_of_mark (regex : Bool) (rest : List Char) :
    ∃ inner, (mark ('/' :: rest)).1.text = '/' :: inner ∧
      slash regex inner = ((mark ('/' :: rest)).1, []) := by
  by_cases assigns : rest.head? = some '='
  · have same : mark ('/' :: rest) =
        ofLength (.punctuator .divideAssign) Punctuator.divideAssign.spelling.length
          ('/' :: rest) := by
      rw [mark, Punctuator.ofText?, Punctuator.withEqual, if_pos (by simpa using assigns)]
    obtain ⟨rest, rfl⟩ := List.head?_eq_some_iff.mp assigns
    rw [same]
    refine ⟨['='], rfl, ?_⟩
    cases regex <;> rfl
  · have same : mark ('/' :: rest) =
        ofLength (.punctuator .divide) Punctuator.divide.spelling.length ('/' :: rest) := by
      rw [mark, Punctuator.ofText?, Punctuator.withEqual, if_neg (by simpa using assigns)]
    rw [same]
    refine ⟨[], rfl, ?_⟩
    cases regex <;> rfl

/-- A slash alone begins what it begins in the text. -/
theorem slash_alone (regex : Bool) (rest : List Char) :
    ∃ inner, (slash regex rest).1.text = '/' :: inner ∧
      slash regex inner = ((slash regex rest).1, []) := by
  cases rest with
  | nil =>
    refine ⟨[], ?_⟩
    cases regex <;> exact ⟨rfl, rfl⟩
  | cons d rest =>
    by_cases line : d = '/'
    · subst line
      exact ⟨_, rfl, ofRun_alone _ _ ('/' :: '/' :: rest)⟩
    by_cases block : d = '*'
    · subst block
      exact ⟨_, rfl, blockComment_alone ['/', '*'] rest⟩
    rw [slash_of_operator line block]
    cases begins : if regex then regularExpression? (d :: rest) else none with
    | none => exact slash_alone_of_mark regex (d :: rest)
    | some found =>
      obtain ⟨allowed, reads⟩ : regex = true ∧ regularExpression? (d :: rest) = some found := by
        cases regex with
        | false => cases begins
        | true => exact ⟨rfl, begins⟩
      obtain ⟨inner, text, alone⟩ := regularExpression?_alone reads
      refine ⟨inner, text, ?_⟩
      -- the pattern begins with the character that tells it from a comment
      have split := regularExpression?_append reads
      rw [text, List.cons_append] at split
      obtain ⟨first, others, rfl⟩ : ∃ first others, inner = first :: others := by
        apply List.exists_cons_of_ne_nil
        rintro rfl
        cases alone
      obtain rfl : first = d := (List.cons.inj (List.cons.inj split).2).1
      rw [slash_of_operator line block, if_pos allowed, alone]
      rfl

/-- The number that begins with a point goes on with a digit. -/
theorem numeral_digit_behind {c : Char} {rest inner : List Char}
    (text : (numeral (c :: rest)).1.text = c :: inner)
    (starts : isDecimalDigit c || (c == '.' && rest.head?.any isDecimalDigit)) :
    isDecimalDigit c || (c == '.' && inner.head?.any isDecimalDigit) := by
  by_cases digit : isDecimalDigit c
  · rw [digit, Bool.true_or]
  · simp only [digit, Bool.false_or, Bool.and_eq_true, beq_iff_eq] at starts
    obtain ⟨rfl, next⟩ := starts
    obtain ⟨d, rest, rfl⟩ : ∃ d after, rest = d :: after := by
      apply List.exists_cons_of_ne_nil
      rintro rfl
      cases next
    have behind : isDecimalDigit d := next
    have digits : ∃ more, (Numeral.read ('.' :: d :: rest)).digits = '.' :: d :: more := by
      rw [Numeral.read_of_nonzero (by decide)]
      simp [Numeral.ofDecimal, Numeral.fraction, digit, behind]
    obtain ⟨more, begins⟩ := digits
    rw [numeral_text, Numeral.taken, begins] at text
    obtain rfl := (List.cons.inj text).2
    simp [behind]

/-- A null character begins nothing, unless it is the last. -/
theorem read_null {mode : LexMode} (outside : mode.inComment = false) {rest : List Char}
    (more : rest ≠ []) :
    (read mode ('\x00' :: rest)).1 =
      { kind := .error, text := ['\x00'], flaws := [⟨.illegalCharacter, 0, 1⟩] } := by
  have inside : ¬ mode.inComment := by simp [outside]
  have noEnd : ¬ ('\x00' == '\x00' && rest.isEmpty) := by simp [more]
  rw [read.eq_2, if_neg inside, if_neg noEnd]
  rfl

/-- A lexeme that does not come out of an earlier chunk says the same alone, but for the null
character that ends a text. -/
theorem read_alone {mode : LexMode} {text : List Char} (outside : mode.inComment = false)
    (unfinished : (read mode text).1.kind ≠ .endOfFile)
    (noNull : ¬ ((read mode text).1.kind = .error ∧ (read mode text).1.text = ['\x00'])) :
    StandsAlone (read mode) text := by
  cases text with
  | nil => exact absurd rfl unfinished
  | cons c rest =>
    have character : c ≠ '\x00' := by
      rintro rfl
      by_cases last : rest = []
      · subst last
        apply unfinished
        rw [read.eq_2]
        simp [outside, ofLength]
      · rw [read_null outside last] at noNull
        exact noNull ⟨rfl, rfl⟩
    have noEnd (more : List Char) : ¬ (c == '\x00' && more.isEmpty) := by simp [character]
    obtain ⟨inner, taken, isPrefix⟩ :
        ∃ inner, (read mode (c :: rest)).1.text = c :: inner ∧ inner <+: rest := by
      obtain ⟨first, inner, taken⟩ :=
        List.exists_cons_of_ne_nil (read_text_ne_nil mode c rest)
      have split := read_append mode (c :: rest)
      rw [taken, List.cons_append] at split
      obtain ⟨same, behind⟩ := List.cons.inj split
      exact ⟨inner, by rw [taken, same], _, behind⟩
    have inside : ¬ mode.inComment := by simp [outside]
    have unfolded (more : List Char) := read.eq_2 mode c more
    simp only [if_neg inside, if_neg (noEnd _)] at unfolded
    rw [StandsAlone, taken, unfolded, unfolded]
    rw [unfolded] at taken
    -- the first character tells the reader, but for a point, which a digit must follow
    by_cases blank : isBlank c
    · simp only [if_pos blank] at taken ⊢
      rw [← taken]
      exact ofRun_alone .whiteSpace isBlank (c :: rest)
    simp only [if_neg blank] at taken ⊢
    by_cases terminator : isLineTerminator c
    · simp only [if_pos terminator] at taken ⊢
      rw [← taken]
      exact lineEnds_alone (c :: rest)
    simp only [if_neg terminator] at taken ⊢
    by_cases quote : c == '"' || c == '\''
    · simp only [if_pos quote] at taken ⊢
      obtain rfl : (stringBody c 1 rest).text = inner := (List.cons.inj taken).2
      exact stringLiteral_alone c rest
    simp only [if_neg quote] at taken ⊢
    by_cases digit : isDecimalDigit c || (c == '.' && rest.head?.any isDecimalDigit)
    · simp only [if_pos digit] at taken ⊢
      rw [if_pos (numeral_digit_behind taken digit), ← taken]
      have starts : isDecimalDigit c || c == '.' := by
        rw [Bool.or_eq_true, Bool.and_eq_true] at digit
        exact Bool.or_eq_true_iff.mpr (digit.imp_right And.left)
      exact numeral_alone starts
    have noDigit : ¬ (isDecimalDigit c || (c == '.' && inner.head?.any isDecimalDigit)) := by
      intro starts
      apply digit
      obtain ⟨left, rfl⟩ := isPrefix
      cases inner with
      | nil =>
        have first : isDecimalDigit c := by simpa using starts
        rw [first, Bool.true_or]
      | cons => exact starts
    simp only [if_neg digit, if_neg noDigit] at taken ⊢
    by_cases slashes : c == '/'
    · simp only [if_pos slashes] at taken ⊢
      obtain rfl := beq_iff_eq.mp slashes
      obtain ⟨other, text, same⟩ := slash_alone mode.regex rest
      obtain rfl : inner = other := (List.cons.inj (taken.symm.trans text)).2
      exact same
    simp only [if_neg slashes] at taken ⊢
    by_cases backslash : c == '\\'
    · simp only [if_pos backslash] at taken ⊢
      rw [← taken]
      exact escapedWord_alone mode.strict (c :: rest)
    simp only [if_neg backslash] at taken ⊢
    by_cases letter : isIdentifierStart c
    · simp only [if_pos letter] at taken ⊢
      obtain rfl : (WordPart.read rest).text = inner := (List.cons.inj taken).2
      exact word_alone mode.strict c rest
    · simp only [if_neg letter] at taken ⊢
      rw [← taken]
      exact mark_alone c rest

end Lexeme

end ScriptSyntax
