import ScriptSyntax.Proofs.Lexeme.Sorts
import ScriptSyntax.Proofs.Scanner.Lossless

/-! What a scanner makes of names and marks: that it agrees with the questions asked of names,
and that each kind with a fixed text covers just that text. -/
namespace ScriptSyntax

namespace Scanner

variable {scanner : Scanner} {source taken : List Char} {initial : Location}

/-- What a scan gives is one lexeme, read behind the trivia that are passed over. -/
theorem exists_reader (scanner : Scanner) (regex : Bool) :
    ∃ reader : Scanner,
      (scanner.scan regex).scanner = (reader.readLexeme regex).scanner ∧
      reader.options = scanner.options ∧
      ∀ source initial taken, scanner.HasRead source initial taken →
        ∃ more, reader.HasRead source initial (taken ++ more) := by
  fun_induction Scanner.scan scanner regex with
  | case1 scanner step skipped final ih =>
    obtain ⟨reader, same, options, further⟩ := ih
    refine ⟨reader, same, options, ?_⟩
    intro source initial taken read
    obtain ⟨more, behind⟩ := further source initial _ (read.readLexeme regex).1
    exact ⟨_, List.append_assoc .. ▸ behind⟩
  | case2 scanner step kept =>
    exact ⟨scanner, rfl, rfl, fun source initial taken read =>
      ⟨[], (List.append_nil taken).symm ▸ read⟩⟩

/-- A scanner on its way through a source: it is called with or without a hint, and code may
become strict or cease to be so. -/
inductive Underway (source : List Char) (initial : Location) : Scanner → Prop where
  | begin (options : ScanOptions) (inComment : Bool) :
      Underway source initial (resume options source inComment initial)
  | call {scanner : Scanner} (before : Underway source initial scanner) (hint : Option Bool) :
      Underway source initial (scanner.call hint).scanner
  | withStrict {scanner : Scanner} (before : Underway source initial scanner) (strict : Bool) :
      Underway source initial (scanner.withStrict strict)

theorem Underway.hasRead (underway : Underway source initial scanner) :
    ∃ taken, scanner.HasRead source initial taken := by
  induction underway with
  | begin options inComment => exact ⟨[], hasRead_resume options source inComment initial⟩
  | call _ hint ih =>
    obtain ⟨taken, read⟩ := ih
    obtain ⟨⟨more, next⟩, -⟩ := read.scan _
    exact ⟨_, next⟩
  | withStrict _ strict ih =>
    obtain ⟨taken, read⟩ := ih
    exact ⟨taken, read.chunk, read.whole, read.position, read.lines, read.uncut⟩

end Scanner

/-- A token at the beginning of a document, as long as the text. -/
structure Token.Covers (token : Token) (text : String) : Prop where
  start : token.span.start = 0
  stop : token.span.stop = text.length

namespace Scanner

section

variable {options : ScanOptions} {name : String} {regex : Bool}

/-- A token that covers a source by itself is what is read of that source. -/
theorem read_of_covers (covers : ((start options name.toList).scan regex).token.Covers name) :
    ∃ mode : LexMode, mode.strict = options.strict ∧
      (Lexeme.read mode name.toList).1.text = name.toList ∧
      ((start options name.toList).scan regex).token.kind =
        (Lexeme.read mode name.toList).1.kind ∧
      ((start options name.toList).scan regex).token.value =
        String.ofList (Lexeme.read mode name.toList).1.value := by
  obtain ⟨first, last⟩ := covers
  obtain ⟨reader, same, sameOptions, further⟩ := exists_reader (start options name.toList) regex
  obtain ⟨more, read⟩ := further name.toList .start [] (hasRead_resume options _ false .start)
  have token : ((start options name.toList).scan regex).token = (reader.readLexeme regex).token :=
    congrArg Scanner.last same
  rw [token] at first last ⊢
  -- what is passed over takes characters, and the token begins at the first
  have begins : reader.position = 0 := first
  have none : more = [] := by
    have position : reader.position = 0 + ([] ++ more).length := read.position
    rw [begins, Nat.zero_add] at position
    exact List.length_eq_zero_iff.mp position.symm
  have ahead : reader.rest = name.toList := by
    have whole := read.whole
    rwa [none] at whole
  have length : (Lexeme.read (reader.lexMode regex) name.toList).1.text.length =
      name.toList.length := by
    have stop : reader.position + (Lexeme.read (reader.lexMode regex) reader.rest).1.text.length =
      name.length := last
    rw [String.length_toList, ← stop, begins, Nat.zero_add, ahead]
  have split := Lexeme.read_append (reader.lexMode regex) name.toList
  refine ⟨reader.lexMode regex, congrArg ScanOptions.strict sameOptions, ?_, ?_, ?_⟩
  · exact List.IsPrefix.eq_of_length ⟨_, split⟩ length
  · rw [← ahead]
    rfl
  · rw [← ahead]
    rfl

theorem reserved_of_covers {word : ReservedWord}
    (kind : ((start options name.toList).scan regex).token.kind = .word word)
    (covers : ((start options name.toList).scan regex).token.Covers name) :
    word.spelling = name ∧ word.isReserved options.strict = true := by
  obtain ⟨mode, sameStrict, text, sameKind, -⟩ := read_of_covers covers
  rw [kind] at sameKind
  obtain ⟨part, isName, reads⟩ := Lexeme.exists_name (.inr ⟨word, sameKind.symm⟩)
  rw [reads] at text sameKind
  obtain ⟨-, -, holds⟩ := WordPart.kind_eq_word.mp sameKind.symm
  rw [sameStrict] at holds
  refine ⟨String.toList_inj.mp ?_, holds⟩
  exact (isName.text_eq_spelling sameKind.symm).symm.trans text

theorem identifier_of_covers
    (kind : ((start options name.toList).scan regex).token.kind = .identifier)
    (covers : ((start options name.toList).scan regex).token.Covers name)
    (value : ((start options name.toList).scan regex).token.value = name) :
    SpellsName name.toList ∧ isReservedWord name options.strict = false := by
  obtain ⟨mode, sameStrict, text, sameKind, sameValue⟩ := read_of_covers covers
  rw [kind] at sameKind
  obtain ⟨part, isName, reads⟩ := Lexeme.exists_name (.inl sameKind.symm)
  rw [reads] at text sameKind sameValue
  have itself : part.value = name.toList := by
    rw [← value, sameValue]
    exact String.toList_ofList.symm
  have plain := isName.plain_of_value_eq_text (itself.trans text.symm)
  refine ⟨itself ▸ isName.shape, ?_⟩
  rcases WordPart.kind_eq_identifier.mp sameKind.symm with escaped | free
  · rw [plain] at escaped
    cases escaped
  · rwa [itself, String.ofList_toList, sameStrict] at free

/-- A name is read as a whole. -/
theorem scan_of_spellsName (isName : SpellsName name.toList) (options : ScanOptions)
    (regex : Bool) :
    let token := ((start options name.toList).scan regex).token
    token.kind = (WordPart.plain name.toList).kind options.strict ∧ token.Covers name ∧
      token.value = name := by
  have reads : Lexeme.read ((start options name.toList).lexMode regex) name.toList =
      (WordPart.plain name.toList).toLexeme options.strict :=
    Lexeme.read_of_spellsName rfl isName
  have significant : ((WordPart.plain name.toList).kind options.strict).isTrivia = false := by
    rcases (WordPart.plain name.toList).kind_cases options.strict with kind | ⟨_, kind⟩
    · rw [kind]
      rfl
    · rw [kind]
      rfl
  have accepted : (start options name.toList).scan regex = _ := scan_of_read reads significant
  rw [accepted]
  refine ⟨rfl, ⟨rfl, ?_⟩, String.ofList_toList⟩
  exact (Nat.zero_add _).trans (String.length_toList ..)

end

/-- What is told of a token is told of the lexeme that it was made of. -/
theorem exists_lexeme (scanner : Scanner) (regex : Bool) :
    ∃ mode text, let lexeme := (Lexeme.read mode text).1
      (scanner.scan regex).token.kind = lexeme.kind ∧
      (scanner.scan regex).token.text.toList = lexeme.text ∧
      (scanner.scan regex).token.value.toList = lexeme.value := by
  obtain ⟨reader, same, -⟩ := exists_reader scanner regex
  have token : (scanner.scan regex).token = (reader.readLexeme regex).token :=
    congrArg Scanner.last same
  rw [token]
  exact ⟨reader.lexMode regex, reader.rest, rfl, String.toList_ofList, String.toList_ofList⟩

end Scanner

open Scanner in
/-- Names agree with what is scanned. A text is a reserved word just if a fresh scanner reads it
as a word, all of it; the word is then the one with this spelling. It is an identifier just if
a fresh scanner of code that is not strict reads it as one, all of it and with itself as the
value. In every scan the value of an identifier is a name, and no escape stands in a word. -/
theorem scan_name (name : String) (strict skipTrivia regex : Bool) :
    let token := ((start { strict, skipTrivia } name.toList).scan regex).token
    let sloppy := ((start { strict := false, skipTrivia } name.toList).scan regex).token
    (isReservedWord name strict = true ↔ ∃ word, token.kind = .word word ∧ token.Covers name) ∧
    (∀ word, token.kind = .word word → token.Covers name →
      ReservedWord.ofSpelling? name = some word) ∧
    (isIdentifier name = true ↔
      sloppy.kind = .identifier ∧ sloppy.Covers name ∧ sloppy.value = name) ∧
    ∀ (scanner : Scanner) (regex : Bool), let token := (scanner.scan regex).token
      (token.kind = .identifier → SpellsName token.value.toList) ∧
      ∀ word, token.kind = .word word → '\\' ∉ token.text.toList := by
  intro token sloppy
  refine ⟨?_, ?_, ?_, ?_⟩
  · rw [isReservedWord_iff]
    constructor
    · rintro ⟨word, rfl, holds⟩
      obtain ⟨kind, covers, -⟩ :=
        scan_of_spellsName word.spelling_spellsName { strict, skipTrivia } regex
      refine ⟨word, kind.trans ?_, covers⟩
      exact WordPart.kind_eq_word.mpr ⟨rfl, String.ofList_toList.symm, holds⟩
    · rintro ⟨word, kind, covers⟩
      exact ⟨word, reserved_of_covers kind covers⟩
  · intro word kind covers
    exact ReservedWord.ofSpelling?_eq_some.mpr (reserved_of_covers kind covers).1
  · rw [isIdentifier_iff]
    constructor
    · rintro ⟨isName, free⟩
      obtain ⟨kind, covers, value⟩ :=
        scan_of_spellsName isName { strict := false, skipTrivia } regex
      refine ⟨kind.trans (WordPart.kind_eq_identifier.mpr (.inr ?_)), covers, value⟩
      rwa [WordPart.plain, String.ofList_toList]
    · rintro ⟨kind, covers, value⟩
      exact identifier_of_covers kind covers value
  · intro scanner regex token
    obtain ⟨mode, ahead, sameKind, text, value⟩ := exists_lexeme scanner regex
    rw [sameKind, text, value]
    refine ⟨?_, ?_⟩
    · intro kind
      obtain ⟨part, isName, reads⟩ := Lexeme.exists_name (.inl kind)
      rw [reads]
      exact isName.shape
    · intro word kind
      have fits := Lexeme.read_fits mode ahead
      rw [fits.fixed word.spelling (congrArg TokenKind.text? kind)]
      exact word.spelling_spellsName.no_backslash

open Scanner in
/-- Fixed texts and longest matches. Wherever a scanner stands in a source, and with leave to
begin a regular expression or without, the token of a kind that has a fixed text covers just
that text. A mark is the longest of all marks that the source goes on with where the token
begins, and an error stands only where it goes on with none. -/
theorem scan_fits {source : List Char} {initial : Location} {scanner : Scanner}
    (underway : Underway source initial scanner) (regex : Bool) :
    let token := (scanner.scan regex).token
    let ahead := source.drop (token.span.start - initial.index)
    (∀ spelling, token.kind.text? = some spelling →
      scanner.sourceText token.span = spelling.toList) ∧
    (∀ mark, token.kind = .punctuator mark → mark.IsLongest ahead) ∧
    (token.kind = .error → ∀ mark : Punctuator, ¬ mark.spelling.toList <+: ahead) := by
  intro token ahead
  obtain ⟨taken, read⟩ := underway.hasRead
  obtain ⟨reader, same, -, further⟩ := exists_reader scanner regex
  obtain ⟨more, behind⟩ := further source initial taken read
  have token_eq : token = (reader.readLexeme regex).token := congrArg Scanner.last same
  have fits := Lexeme.read_fits (reader.lexMode regex) reader.rest
  have split := Lexeme.read_append (reader.lexMode regex) reader.rest
  have start : token.span.start = initial.index + (taken ++ more).length := by
    rw [token_eq]
    exact behind.position
  have there : ahead = reader.rest := by
    have offset : token.span.start - initial.index = (taken ++ more).length := by omega
    change source.drop (token.span.start - initial.index) = _
    rw [offset, ← behind.whole, List.drop_left]
  have covers : scanner.sourceText token.span =
      (Lexeme.read (reader.lexMode regex) reader.rest).1.text := by
    have begins : scanner.lines.initial = initial := by
      rw [read.lines, LineTable.ofText_initial]
    have whole : scanner.chunk = taken ++ more ++
        (Lexeme.read (reader.lexMode regex) reader.rest).1.text ++
          (Lexeme.read (reader.lexMode regex) reader.rest).2 := by
      rw [List.append_assoc _ _ (Prod.snd _), split, behind.whole, read.chunk]
    refine sourceText_piece _ whole begins start ?_
    rw [← start, token_eq]
    rfl
  rw [there, covers, token_eq]
  exact ⟨fits.fixed, fits.longest, fits.no_mark⟩

open Scanner in
/-- Three signs and an equals sign behind a name, in code that has become strict. -/
theorem scan_fits_of_four_signs :
    let source := ['a', '>', '>', '>', '=', '=']
    let scanner := ((resume {} source false .start).call none).scanner.withStrict true
    let token := (scanner.scan false).token
    Underway source .start scanner ∧ token.span.start = 1 ∧
    token.kind = .punctuator .unsignedRightShiftAssign ∧
    scanner.sourceText token.span = ['>', '>', '>', '='] ∧
    Punctuator.unsignedRightShiftAssign.IsLongest ['>', '>', '>', '=', '='] := by
  intro source scanner token
  have underway : Underway source .start scanner :=
    .withStrict (.call (.begin {} false) none) true
  have behind : scanner =
      ((resume {} source false .start).readLexeme true).scanner.withStrict true :=
    congrArg (fun step : ScanStep => step.scanner.withStrict true) (scan_eq_readLexeme rfl true)
  have keeps : scanner.options.skipTrivia = false := by rw [behind]; rfl
  have reads : token = (scanner.readLexeme false).token :=
    congrArg ScanStep.token (scan_eq_readLexeme keeps false)
  have kind : token.kind = .punctuator .unsignedRightShiftAssign := by
    rw [reads, behind]
    decide +kernel
  have begins : token.span.start = 1 := by
    rw [reads, behind]
    decide +kernel
  obtain ⟨fixed, longest, -⟩ := scan_fits underway false
  have covers := fixed ">>>=" (congrArg TokenKind.text? kind)
  have best := longest _ kind
  have ahead : source.drop (token.span.start - Location.start.index) =
      ['>', '>', '>', '=', '='] := by
    rw [begins]
    rfl
  rw [ahead] at best
  exact ⟨underway, begins, kind, covers, best⟩

end ScriptSyntax
