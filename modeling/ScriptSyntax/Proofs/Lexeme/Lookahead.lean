import ScriptSyntax.Proofs.Lexeme.LineBreaks

/-! A lexeme that leaves a fence of the text before it does not depend on what comes behind
that text. Only a slash that may begin a regular expression looks further, for the slash
that closes it. -/
namespace ScriptSyntax

theorem commentBody_rest_of_open {offset : Nat} {text : List Char}
    (open_ : (commentBody offset text).isClosed = false) : (commentBody offset text).rest = [] := by
  fun_induction commentBody offset text <;> simp_all [Body.cut, Body.close, Body.after]

/-- A comment that is closed ends there, whatever comes next. -/
theorem commentBody_delimited {offset : Nat} {text : List Char}
    (closed : (commentBody offset text).isClosed) (other : List Char) :
    commentBody offset ((commentBody offset text).text ++ other) =
      { commentBody offset text with rest := other } := by
  fun_induction commentBody offset text with
  | case1 => cases closed
  | case2 offset rest => rfl
  | case3 offset rest ih =>
    have same := ih closed
    simp only [Body.after, List.cons_append, List.nil_append, commentBody] at same ⊢
    rw [same]
  | case4 offset c rest open_ whole ih =>
    have same := ih closed
    -- the body behind `c` begins as the text behind it does
    have begins : ∀ d, (∃ after, (commentBody (offset + 1) rest).text ++ other = d :: after) →
        ∃ after, rest = d :: after := by
      rintro d ⟨after, found⟩
      cases rest with
      | nil => cases closed
      | cons e others =>
        obtain ⟨first, inner, starts⟩ :=
          List.exists_cons_of_ne_nil (commentBody_text_ne_nil (offset + 1) e others)
        have split := commentBody_append (offset + 1) (e :: others)
        rw [starts, List.cons_append] at split found
        rw [← (List.cons.inj found).1, (List.cons.inj split).1]
        exact ⟨others, rfl⟩
    have noMark : ∀ after, c = '*' → (commentBody (offset + 1) rest).text ++ other =
        '/' :: after → False := by
      intro after star slash
      obtain ⟨others, same⟩ := begins _ ⟨after, slash⟩
      exact open_ others star same
    have noBreak : ∀ after, c = '\r' → (commentBody (offset + 1) rest).text ++ other =
        '\n' :: after → False := by
      intro after carriage line
      obtain ⟨others, same⟩ := begins _ ⟨after, line⟩
      exact whole others carriage same
    simp only [Body.after, List.cons_append, List.nil_append]
    rw [commentBody.eq_4 _ _ _ noMark noBreak, same]
    rfl

/-- A comment that goes on behind a text is not closed in it. -/
theorem commentBody_isOpen {offset : Nat} {text other : List Char}
    (reaches : text.length < (commentBody offset (text ++ other)).text.length) :
    (commentBody offset text).isClosed = false := by
  by_contra closed
  have same := commentBody_delimited (Bool.not_eq_false _ ▸ closed)
    ((commentBody offset text).rest ++ other)
  have whole := commentBody_append offset text
  rw [← List.append_assoc, whole] at same
  rw [same] at reaches
  change text.length < (commentBody offset text).text.length at reaches
  have length := congrArg List.length whole
  rw [List.length_append] at length
  omega

/-- A run of line terminators ends before any other character. -/
theorem lineBreakRun_delimited {offset : Nat} {text behind : List Char} {stop : Char}
    (left : (lineBreakRun offset text).rest = stop :: behind) (other : List Char) :
    lineBreakRun offset ((lineBreakRun offset text).text ++ stop :: other) =
      { lineBreakRun offset text with rest := stop :: other } := by
  fun_induction lineBreakRun offset text with
  | case1 => cases left
  | case2 offset rest ih =>
    have same := ih left
    simp only [Body.after, List.cons_append, List.nil_append, lineBreakRun] at same ⊢
    rw [same]
  | case3 offset c rest whole terminator ih =>
    have same := ih left
    have split := lineBreakRun_append (offset + 1) rest
    have noBreak : ∀ after, c = '\r' → (lineBreakRun (offset + 1) rest).text ++ stop :: other =
        '\n' :: after → False := by
      intro after carriage line
      change (lineBreakRun (offset + 1) rest).rest = stop :: behind at left
      rw [left] at split
      cases inner : (lineBreakRun (offset + 1) rest).text with
      | nil =>
        rw [inner, List.nil_append] at split line
        obtain ⟨rfl, -⟩ := List.cons.inj line
        exact whole behind carriage split.symm
      | cons d others =>
        rw [inner, List.cons_append] at split line
        obtain ⟨rfl, -⟩ := List.cons.inj line
        exact whole _ carriage split.symm
    simp only [Body.after, List.cons_append, List.nil_append]
    rw [lineBreakRun.eq_3 _ _ _ noBreak, if_pos terminator, same]
    rfl
  | case4 offset c rest whole plain =>
    obtain ⟨rfl, -⟩ := List.cons.inj left
    have noBreak : ∀ after, c = '\r' → other = '\n' :: after → False := by
      rintro after rfl -
      exact plain (by decide)
    simp only [Body.cut, List.nil_append]
    rw [lineBreakRun.eq_3 _ _ _ noBreak, if_neg plain]
    rfl

/-- A pattern ends with its closing slash, whatever comes next. -/
theorem patternBody?_delimited {inClass : Bool} {text pattern rest : List Char}
    (found : patternBody? inClass text = some (pattern, rest)) (other : List Char) :
    patternBody? inClass (pattern ++ '/' :: other) = some (pattern, other) := by
  fun_induction patternBody? inClass text generalizing pattern rest with
  | case1 | case2 | case3 | case4 => cases found
  | case5 inClass c plain backslash next after plainNext ih =>
    obtain ⟨⟨inner, left⟩, matched, same⟩ := Option.map_eq_some_iff.mp found
    obtain ⟨rfl, rfl⟩ := Prod.mk.inj same
    simp [patternBody?, plain, backslash, plainNext, ih matched]
  | case6 inClass c rest plain literal closes =>
    obtain ⟨rfl, rfl⟩ := Prod.mk.inj (Option.some.inj found)
    obtain rfl := beq_iff_eq.mp (Bool.and_eq_true_iff.mp closes).1
    rw [List.nil_append, patternBody?.eq_def]
    dsimp only
    rw [if_neg (by decide), if_neg (by decide), if_pos closes]
  | case7 inClass c rest =>
    rename_i plain literal open_ _ ih
    obtain ⟨⟨body, left⟩, matched, same⟩ := Option.map_eq_some_iff.mp found
    obtain ⟨rfl, rfl⟩ := Prod.mk.inj same
    have behind := ih matched
    rw [List.cons_append, patternBody?.eq_def]
    dsimp only
    rw [if_neg plain, if_neg literal, if_neg open_, behind]
    rfl

theorem Escape.ofHex_width_pos (marker : Char) (count : Nat) (rest : List Char) :
    0 < (ofHex marker count rest).width := by
  unfold ofHex
  repeat' split
  all_goals dsimp only; omega

theorem Escape.read_width_pos (c : Char) (rest : List Char) : 0 < (read (c :: rest)).width := by
  unfold read
  split
  · simp_all
  · exact Nat.zero_lt_two
  · split
    · exact Nat.zero_lt_one
    repeat' split
    · exact ofHex_width_pos _ _ _
    · exact ofHex_width_pos _ _ _
    · exact Nat.add_pos_left Nat.zero_lt_one _
    · exact Nat.zero_lt_one
    · exact Nat.zero_lt_one

/-- What is left of a text that still has something behind it. -/
private theorem isSuffix_of_append {text left rest : List Char}
    (suffix : rest ++ left <:+ text ++ left) :
    rest <:+ text :=
  ((List.suffix_append_inj_of_length_eq rfl).mp suffix).1

theorem stringBody_rest_isSuffix (quote : Char) (offset : Nat) (text : List Char) :
    (stringBody quote offset text).rest <:+ text :=
  ⟨_, stringBody_append quote offset text⟩

/-- A string that leaves a fence is the same whatever comes behind that fence. -/
theorem stringBody_settled {quote : Char} {offset : Nat} {text left rest : List Char}
    (reads : (stringBody quote offset (text ++ left)).rest = rest ++ left) (fenced : Fenced rest)
    (right : List Char) :
    stringBody quote offset (text ++ right) =
      { stringBody quote offset (text ++ left) with rest := rest ++ right } := by
  fun_induction stringBody quote offset text with
  | case1 offset =>
    have suffix := reads ▸ stringBody_rest_isSuffix quote offset ([] ++ left)
    exact absurd (fenced.of_suffix (isSuffix_of_append suffix)) Fenced.not_nil
  | case2 offset c tail closes =>
    simp only [List.cons_append, stringBody, if_pos closes] at reads ⊢
    have same : tail = rest := List.append_cancel_right reads
    rw [same]
    rfl
  | case3 offset c tail open_ terminator =>
    simp only [List.cons_append, stringBody, if_neg open_, if_pos terminator] at reads ⊢
    have same : c :: tail = rest := List.append_cancel_right reads
    rw [← same]
    rfl
  | case4 offset c tail open_ plain backslash escape stop ih =>
    have unfolded (more : List Char) := stringBody.eq_2 quote offset c (tail ++ more)
    simp only [if_neg open_, if_neg plain, if_pos backslash, ← List.cons_append] at unfolded
    rw [unfolded left] at reads
    have suffix := reads ▸ stringBody_rest_isSuffix quote
      (offset + 1 + (Escape.read (tail ++ left)).width)
      ((tail ++ left).drop (Escape.read (tail ++ left)).width)
    -- the escape takes a character, so the fence lies behind one
    obtain ⟨d, after, rfl⟩ : ∃ d after, tail = d :: after := by
      apply List.exists_cons_of_ne_nil
      rintro rfl
      have none := isSuffix_of_append (suffix.trans (List.drop_suffix _ _))
      exact Fenced.not_nil (fenced.of_suffix none)
    have behind : Fenced after := by
      obtain ⟨fewer, width⟩ := Nat.exists_eq_add_one_of_ne_zero
        (Nat.pos_iff_ne_zero.mp (Escape.read_width_pos d (after ++ left)))
      rw [List.cons_append, width, List.drop_succ_cons] at suffix
      exact fenced.of_suffix (isSuffix_of_append (suffix.trans (List.drop_suffix _ _)))
    have same (more : List Char) : Escape.read (d :: after ++ more) = escape :=
      Escape.read_fenced behind d more
    have width : escape.width ≤ (d :: after).length := (Escape.read_spelled _).width_le
    have cut (more : List Char) : (d :: after ++ more).drop escape.width =
        (d :: after).drop escape.width ++ more := List.drop_append_of_le_length width
    have taken (more : List Char) : (d :: after ++ more).take escape.width =
        (d :: after).take escape.width := List.take_append_of_le_length width
    simp only [same, cut, taken] at reads unfolded
    rw [unfolded left, unfolded right, ih reads]
    rfl
  | case5 offset c tail open_ plain literal ih =>
    simp only [List.cons_append, stringBody, if_neg open_, if_neg plain, if_neg literal] at reads ⊢
    rw [ih reads]
    rfl

namespace Lexeme

/-- What a reader takes off `text` it takes off it whatever comes behind, if it leaves a
fence of it. -/
def Settled (reader : List Char → Lexeme × List Char) (text : List Char) : Prop :=
  ∀ ⦃left rest : List Char⦄, (reader (text ++ left)).2 = rest ++ left → Fenced rest →
    ∀ right, reader (text ++ right) = ((reader (text ++ left)).1, rest ++ right)

theorem Settled.of_fixed {reader : List Char → Lexeme × List Char} {text : List Char}
    (fixed : ∀ more, reader (text ++ more) = ((reader text).1, (reader text).2 ++ more)) :
    Settled reader text := by
  intro left rest reads _ right
  rw [fixed left] at reads
  have same : (reader text).2 = rest := List.append_cancel_right reads
  rw [fixed right, fixed left, same]

/-- A piece of text and what is left of it, when there is more behind it. -/
private theorem append_of_append {text left rest taken : List Char}
    (split : taken ++ (rest ++ left) = text ++ left) : text = taken ++ rest := by
  rw [← List.append_assoc] at split
  exact (List.append_cancel_right split).symm

theorem ofRun_settled (kind : TokenKind) (test : Char → Bool) (text : List Char) :
    Settled (ofRun kind test) text := by
  intro left rest reads fenced right
  have split := List.takeWhile_append_dropWhile (p := test) (l := text ++ left)
  have all : ∀ c ∈ (text ++ left).takeWhile test, test c := List.all_eq_true.mp List.all_takeWhile
  obtain ⟨stop, behind, rfl⟩ := List.exists_cons_of_ne_nil fenced.ne_nil
  change (text ++ left).dropWhile test = stop :: behind ++ left at reads
  have stops : ¬ test stop := by
    have head := List.head?_dropWhile_not test (text ++ left)
    simpa [reads] using head
  rw [reads] at split
  obtain ⟨taken, run⟩ : ∃ taken, (text ++ left).takeWhile test = taken := ⟨_, rfl⟩
  rw [run] at split all
  obtain rfl := append_of_append split
  rw [ofRun, ofRun, run, List.append_assoc, List.takeWhile_append_of_pos all,
    List.dropWhile_append_of_pos all, List.cons_append, List.takeWhile_cons_of_neg stops,
    List.dropWhile_cons_of_neg stops, List.append_nil]

theorem lineEnds_settled (text : List Char) : Settled lineEnds text := by
  intro left rest reads fenced right
  obtain ⟨stop, behind, rfl⟩ := List.exists_cons_of_ne_nil fenced.ne_nil
  change (lineBreakRun 0 (text ++ left)).rest = stop :: behind ++ left at reads
  have split := lineBreakRun_append 0 (text ++ left)
  have same := lineBreakRun_delimited reads (behind ++ right)
  rw [reads] at split
  have whole := append_of_append split
  rw [← List.cons_append, ← List.append_assoc, ← whole] at same
  simp only [lineEnds, same]

theorem blockComment_settled (opening text : List Char) :
    Settled (blockComment opening) text := by
  intro left rest reads fenced right
  change (commentBody opening.length (text ++ left)).rest = rest ++ left at reads
  have closed : (commentBody opening.length (text ++ left)).isClosed := by
    by_contra open_
    rw [commentBody_rest_of_open (by simpa using open_)] at reads
    exact fenced.ne_nil (List.append_eq_nil_iff.mp reads.symm).1
  have split := commentBody_append opening.length (text ++ left)
  have same := commentBody_delimited closed (rest ++ right)
  rw [reads] at split
  rw [← List.append_assoc, ← append_of_append split] at same
  simp only [blockComment, same]

theorem stringLiteral_settled (quote : Char) (text : List Char) :
    Settled (stringLiteral quote) text := by
  intro left rest reads fenced right
  change (stringBody quote 1 (text ++ left)).rest = rest ++ left at reads
  have same := stringBody_settled reads fenced right
  simp only [stringLiteral, same]

theorem numeral_settled {c : Char} {rest : List Char} (fenced : Fenced rest) :
    Settled numeral (c :: rest) := by
  apply Settled.of_fixed
  intro more
  have all : Fenced (c :: rest) := Fenced.cons_iff.mpr (.inr fenced)
  have digits := Numeral.read_isPrefix (c :: rest)
  have behind := all.drop digits (Numeral.read_free _)
  have taken := (isPrefix_append_of_drop digits (Numeral.tail_isPrefix _)).length_le
  rw [List.length_append] at taken
  simp only [numeral, Numeral.read_fenced fenced, drop_append_of_isPrefix digits,
    Numeral.tail_fenced behind, List.take_append_of_le_length taken,
    List.drop_append_of_le_length taken]

theorem word_settled {rest : List Char} (fenced : Fenced rest) (strict : Bool) (first : Char) :
    Settled (word strict first) rest := by
  apply Settled.of_fixed
  intro more
  simp only [word, WordPart.read_fenced fenced]
  rfl

theorem escapedWord_settled {c : Char} {rest : List Char} (fenced : Fenced rest)
    (strict : Bool) : Settled (escapedWord strict) (c :: rest) := by
  apply Settled.of_fixed
  intro more
  have all : Fenced (c :: rest) := Fenced.cons_iff.mpr (.inr fenced)
  rw [escapedWord, escapedWord, WordPart.escaped?_fenced all]
  cases spelled : WordPart.escaped? isIdentifierStart (c :: rest) with
  | none => rfl
  | some first =>
    obtain ⟨enough, free⟩ := WordPart.escaped?_free spelled
    dsimp only
    rw [List.drop_append_of_le_length enough, List.take_append_of_le_length enough,
      WordPart.read_fenced (all.drop_of_take enough free)]
    rfl

theorem mark_settled {rest : List Char} (fenced : Fenced rest) (c : Char) :
    Settled mark (c :: rest) := by
  apply Settled.of_fixed
  intro more
  rw [mark, mark, Punctuator.ofText?_fenced fenced]
  cases found : Punctuator.ofText? (c :: rest) with
  | none => rfl
  | some mark =>
    have length := (Punctuator.spelling_isPrefix found).length_le
    rw [String.length_toList] at length
    simp only [ofLength, List.take_append_of_le_length length,
      List.drop_append_of_le_length length]

theorem regularExpression?_settled {text left rest : List Char} {lexeme : Lexeme}
    (reads : regularExpression? (text ++ left) = some (lexeme, rest ++ left))
    (fenced : Fenced rest) (right : List Char) :
    regularExpression? (text ++ right) = some (lexeme, rest ++ right) := by
  obtain ⟨⟨pattern, after⟩, body, same⟩ := Option.map_eq_some_iff.mp reads
  obtain ⟨rfl, dropped⟩ := Prod.mk.inj same
  obtain ⟨flags, run⟩ : ∃ flags, after.takeWhile isIdentifierPart = flags := ⟨_, rfl⟩
  have cut : flags ++ (rest ++ left) = after := by
    rw [← run, ← dropped]
    exact List.takeWhile_append_dropWhile
  have whole : text = pattern ++ '/' :: (flags ++ rest) := by
    have split := patternBody?_append body
    rw [← cut, ← List.append_assoc, ← List.cons_append, ← List.append_assoc] at split
    exact (List.append_cancel_right split).symm
  -- the flags are a run of characters, and end where they did
  have left_over : (ofRun .whiteSpace isIdentifierPart (flags ++ rest ++ left)).2 =
      rest ++ left := by
    rw [List.append_assoc, cut]
    exact dropped
  have flagsSettled :=
    ofRun_settled .whiteSpace isIdentifierPart (flags ++ rest) left_over fenced right
  obtain ⟨sameFlags, sameRest⟩ := Prod.mk.inj flagsSettled
  have sameFlags := congrArg Lexeme.text sameFlags
  simp only [ofRun] at sameFlags sameRest
  rw [List.append_assoc flags rest left, cut] at sameFlags
  rw [whole, List.append_assoc, List.cons_append, regularExpression?,
    patternBody?_delimited body, Option.map_some]
  simp only [sameFlags, sameRest]

/-- A slash that neither begins a comment nor a regular expression is an operator. -/
theorem slash_of_operator {d : Char} (noLine : d ≠ '/') (noBlock : d ≠ '*') (regex : Bool)
    (rest : List Char) :
    slash regex (d :: rest) =
      (if regex then regularExpression? (d :: rest) else none).getD (mark ('/' :: d :: rest)) := by
  rw [slash.eq_def]
  split
  · simp_all
  · simp_all
  · cases (if regex then regularExpression? (d :: rest) else none) <;> rfl

/-- A regular expression that closes in a text begins there whatever comes behind. -/
theorem regularExpression?_isSome {text right : List Char} {found : Lexeme × List Char}
    (reads : regularExpression? (text ++ right) = some found)
    (within : found.1.text.length ≤ text.length + 1) (left : List Char) :
    (regularExpression? (text ++ left)).isSome := by
  obtain ⟨⟨pattern, after⟩, body, rfl⟩ := Option.map_eq_some_iff.mp reads
  simp only [List.cons_append, List.length_cons, List.length_append] at within
  have split : (pattern ++ ['/']) ++ after = text ++ right := by
    simpa using patternBody?_append body
  obtain ⟨inner, rfl⟩ : pattern ++ ['/'] <+: text := by
    apply List.prefix_of_prefix_length_le ⟨after, split⟩ (List.prefix_append text right)
    rw [List.length_append, List.length_singleton]
    omega
  have same := patternBody?_delimited body (inner ++ left)
  simp only [List.append_assoc, List.cons_append, List.nil_append] at same ⊢
  rw [regularExpression?, same]
  rfl

theorem slash_settled (regex : Bool) {text left rest : List Char}
    (reads : (slash regex (text ++ left)).2 = rest ++ left) (fenced : Fenced rest)
    (right : List Char)
    (within : (slash regex (text ++ right)).1.kind = .regularExpression →
      (slash regex (text ++ right)).1.text.length ≤ text.length + 1) :
    slash regex (text ++ right) = ((slash regex (text ++ left)).1, rest ++ right) := by
  have split := slash_append regex (text ++ left)
  rw [reads, ← List.cons_append] at split
  have whole := append_of_append split
  have behind : Fenced text := by
    obtain ⟨first, inner, taken⟩ :=
      List.exists_cons_of_ne_nil (slash_text_ne_nil regex (text ++ left))
    rw [taken, List.cons_append] at whole
    exact fenced.of_suffix ⟨inner, (List.cons.inj whole).2.symm⟩
  obtain ⟨d, after, rfl⟩ := List.exists_cons_of_ne_nil behind.ne_nil
  by_cases line : d = '/'
  · subst line
    exact ofRun_settled _ _ ('/' :: '/' :: after) reads fenced right
  by_cases block : d = '*'
  · subst block
    exact blockComment_settled _ after reads fenced right
  have operator (more : List Char) : slash regex (d :: after ++ more) =
      (if regex then regularExpression? (d :: after ++ more) else none).getD
        (mark ('/' :: d :: after ++ more)) :=
    slash_of_operator line block regex (after ++ more)
  rw [operator] at reads within
  rw [operator, operator]
  have plain := mark_settled behind '/'
  cases regex with
  | false => exact plain reads fenced right
  | true =>
    simp only [if_true] at reads within ⊢
    cases before : regularExpression? (d :: after ++ left) with
    | some found =>
      rw [before, Option.getD_some] at reads
      have same : found = (found.1, rest ++ left) := Prod.ext rfl reads
      rw [regularExpression?_settled (same ▸ before) fenced right]
      rfl
    | none =>
      have none : regularExpression? (d :: after ++ right) = none := by
        by_contra some
        obtain ⟨found, later⟩ := Option.ne_none_iff_exists'.mp some
        rw [later, Option.getD_some] at within
        have kind : found.1.kind = .regularExpression := by
          obtain ⟨_, _, rfl⟩ := Option.map_eq_some_iff.mp later
          rfl
        have closes := regularExpression?_isSome later (within kind) left
        rw [before] at closes
        cases closes
      rw [before] at reads
      rw [none]
      exact plain reads fenced right

/-- A lexeme that leaves a fence of a text is read off that text whatever comes behind it,
unless a slash finds what closes it only there. -/
theorem read_settled (mode : LexMode) {text left rest : List Char}
    (reads : (read mode (text ++ left)).2 = rest ++ left) (fenced : Fenced rest)
    (right : List Char)
    (within : (read mode (text ++ right)).1.kind = .regularExpression →
      (read mode (text ++ right)).1.text.length ≤ text.length) :
    read mode (text ++ right) = ((read mode (text ++ left)).1, rest ++ right) := by
  have split := read_append mode (text ++ left)
  rw [reads] at split
  have whole := append_of_append split
  cases text with
  | nil => exact absurd (List.append_eq_nil_iff.mp whole.symm).2 fenced.ne_nil
  | cons c tail =>
    -- the lexeme takes a character, so the fence lies behind one
    have behind : Fenced tail := by
      obtain ⟨first, inner, taken⟩ :=
        List.exists_cons_of_ne_nil (read_text_ne_nil mode c (tail ++ left))
      rw [List.cons_append, taken, List.cons_append] at whole
      exact fenced.of_suffix ⟨inner, (List.cons.inj whole).2.symm⟩
    have notLast (more : List Char) : (tail ++ more).isEmpty = false := by
      simp [behind.ne_nil]
    have ahead (more : List Char) : (tail ++ more).head? = tail.head? := behind.head?_append more
    have unfolded (more : List Char) := read.eq_2 mode c (tail ++ more)
    simp only [notLast, ahead, Bool.and_false, Bool.false_eq_true, if_false,
      ← List.cons_append] at unfolded
    rw [unfolded] at reads within
    rw [unfolded, unfolded]
    by_cases inside : mode.inComment
    · simp only [if_pos inside] at reads ⊢
      exact blockComment_settled [] (c :: tail) reads fenced right
    simp only [if_neg inside] at reads within ⊢
    by_cases blank : isBlank c
    · simp only [if_pos blank] at reads ⊢
      exact ofRun_settled .whiteSpace isBlank (c :: tail) reads fenced right
    simp only [if_neg blank] at reads within ⊢
    by_cases terminator : isLineTerminator c
    · simp only [if_pos terminator] at reads ⊢
      exact lineEnds_settled (c :: tail) reads fenced right
    simp only [if_neg terminator] at reads within ⊢
    by_cases quote : c == '"' || c == '\''
    · simp only [if_pos quote] at reads ⊢
      exact stringLiteral_settled c tail reads fenced right
    simp only [if_neg quote] at reads within ⊢
    by_cases digit : isDecimalDigit c || (c == '.' && tail.head?.any isDecimalDigit)
    · simp only [if_pos digit] at reads ⊢
      exact numeral_settled behind reads fenced right
    simp only [if_neg digit] at reads within ⊢
    by_cases slashes : c == '/'
    · simp only [if_pos slashes] at reads within ⊢
      exact slash_settled mode.regex reads fenced right within
    simp only [if_neg slashes] at reads ⊢
    by_cases backslash : c == '\\'
    · simp only [if_pos backslash] at reads ⊢
      exact escapedWord_settled behind mode.strict reads fenced right
    simp only [if_neg backslash] at reads ⊢
    by_cases letter : isIdentifierStart c
    · simp only [if_pos letter] at reads ⊢
      exact word_settled behind mode.strict c reads fenced right
    · simp only [if_neg letter] at reads ⊢
      exact mark_settled behind c reads fenced right

end Lexeme

end ScriptSyntax
