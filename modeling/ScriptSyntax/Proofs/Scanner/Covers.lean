import ScriptSyntax.Proofs.Scanner.Lossless

/-! What a reading takes up. With its trivia it is the tokens that stand next to each other from
where the scanner stands, and the end of file, to which at most a null character is left. -/
namespace ScriptSyntax

/-- The end of input, or a null character that is the last, is all that is read as the end. -/
theorem Lexeme.read_endOfFile_text {mode : LexMode} {text : List Char}
    (ended : (read mode text).1.kind = .endOfFile) : text = [] ∨ text = ['\x00'] := by
  cases text with
  | nil => exact .inl rfl
  | cons c rest =>
    right
    revert ended
    unfold read
    dsimp only
    split
    · simp [blockComment]
    split
    · next null => simpa using fun _ => null
    split
    · simp [ofRun]
    split
    · simp [lineEnds]
    split
    · simp [stringLiteral]
    split
    · simp [numeral]
    split
    · exact fun ended => absurd ended (slash_kind_ne_endOfFile _ _)
    split
    · exact fun ended => absurd ended (escapedWord_kind_ne_endOfFile _ _)
    split
    · exact fun ended => absurd ended (toLexeme_kind_ne_endOfFile _ _)
    · exact fun ended => absurd ended (mark_kind_ne_endOfFile _)

/-- Ranges that follow each other without gaps, none of them empty. -/
def Adjoining : Nat → List (Nat × Nat) → Nat → Prop
  | start, [], stop => start = stop
  | start, range :: later, stop =>
    range.1 = start ∧ start < range.2 ∧ Adjoining range.2 later stop

namespace Scanner

variable {scanner viewer final : Scanner} {source taken : List Char} {initial : Location}
  {tokens : List Token} {reports : List Report}

/-- The text of a token is what its span covers. -/
theorem HasRead.next_text (read : scanner.HasRead source initial taken)
    (keeps : scanner.options.skipTrivia = false) (chunk : viewer.chunk = source)
    (begins : viewer.lines.initial = initial) :
    let text := scanner.next.token.text.toList
    scanner.next.scanner.HasRead source initial (taken ++ text) ∧
      viewer.sourceText scanner.next.token.span = text ∧
      text ++ scanner.next.scanner.rest = scanner.rest := by
  obtain ⟨piece, next, covers, split⟩ := read.scan_piece keeps chunk begins scanner.allowsRegex
  have text : scanner.next.token.text.toList = (scanner.lexeme scanner.allowsRegex).text := by
    rw [next_eq_readLexeme keeps]
    exact String.toList_ofList
  have whole : (scanner.lexeme scanner.allowsRegex).text ++ scanner.next.scanner.rest =
      scanner.rest := by
    rw [next_eq_readLexeme keeps]
    exact readLexeme_append scanner _
  have same : piece = scanner.next.token.text.toList := by
    rw [text]
    exact List.append_cancel_right (split.trans whole.symm)
  subst same
  exact ⟨next, covers, split⟩

/-- Before the end of file a token that is kept takes at least one character. -/
theorem HasRead.start_lt_stop (read : scanner.HasRead source initial taken)
    (keeps : scanner.options.skipTrivia = false)
    (unfinished : scanner.next.token.kind ≠ .endOfFile) :
    scanner.next.token.span.start < scanner.next.token.span.stop := by
  obtain ⟨⟨more, next⟩, -⟩ := read.scan scanner.allowsRegex
  have start : scanner.next.token.span.start = scanner.position := scan_start keeps _
  have before := read.position_add_rest
  have behind : scanner.next.token.span.stop + scanner.next.scanner.rest.length =
      initial.index + source.length := next.position_add_rest
  have shorter : scanner.next.scanner.rest.length < scanner.rest.length :=
    scan_rest_length_lt _ _ unfinished
  omega

theorem next_endOfFile_text (keeps : scanner.options.skipTrivia = false)
    (ended : scanner.next.token.kind = .endOfFile) :
    scanner.next.token.text = "" ∨ scanner.next.token.text = "\x00" := by
  rw [next_eq_readLexeme keeps] at ended ⊢
  -- nothing is left behind the end, so its text is all there was
  have bare : (scanner.lexeme scanner.allowsRegex).text = scanner.rest := by
    have split := readLexeme_append scanner scanner.allowsRegex
    have none : (scanner.readLexeme scanner.allowsRegex).scanner.rest = [] :=
      Lexeme.read_endOfFile ended
    rwa [none, List.append_nil] at split
  change String.ofList (scanner.lexeme scanner.allowsRegex).text = "" ∨
    String.ofList (scanner.lexeme scanner.allowsRegex).text = "\x00"
  rw [bare]
  rcases Lexeme.read_endOfFile_text ended with empty | null
  · exact .inl (by rw [empty])
  · exact .inr (by rw [null])

end Scanner

/-- Tokens that take up the text from `start` on, with the end of file behind them. What their
spans cover is looked up by `viewer`. -/
structure Covers (viewer : Scanner) (start : Nat) (text : List Char) (listed : List Token)
    (ending : Token) : Prop where
  unfinished : ∀ token ∈ listed, token.kind ≠ .endOfFile
  ended : ending.kind = .endOfFile
  adjoining : Adjoining start (listed.map fun token => (token.span.start, token.span.stop))
    ending.span.start
  stop : ending.span.stop = start + text.length
  whole : (listed.flatMap fun token => token.text.toList) ++ ending.text.toList = text
  remainder : ending.text = "" ∨ ending.text = "\x00"
  sourceText : ∀ token ∈ listed ++ [ending], viewer.sourceText token.span = token.text.toList

namespace Scanner

/-- A reading is one of tokens that take up all that was left. -/
theorem Reads.exists_covers (reads : Reads scanner tokens reports final)
    (read : scanner.HasRead source initial taken) (keeps : scanner.options.skipTrivia = false)
    (chunk : viewer.chunk = source) (begins : viewer.lines.initial = initial) :
    ∃ listed ending, tokens = listed ++ [ending] ∧
      Covers viewer scanner.position scanner.rest listed ending := by
  induction reads generalizing taken with
  | @last scanner ended =>
    obtain ⟨next, covered, split⟩ := read.next_text keeps chunk begins
    have none : scanner.next.scanner.rest = [] := scan_endOfFile ended
    have stop : scanner.next.token.span.stop + scanner.next.scanner.rest.length =
        initial.index + source.length := next.position_add_rest
    rw [none] at split stop
    refine ⟨[], scanner.next.token, rfl, ?_⟩
    exact {
      unfinished := List.forall_mem_nil _
      ended
      adjoining := (scan_start keeps _).symm
      stop := stop.trans read.position_add_rest.symm
      whole := (List.append_nil _).symm.trans split
      remainder := next_endOfFile_text keeps ended
      sourceText := List.forall_mem_singleton.mpr covered }
  | @more scanner final tokens reports unfinished _ ih =>
    obtain ⟨next, covered, split⟩ := read.next_text keeps chunk begins
    obtain ⟨listed, ending, rfl, rest⟩ := ih next (after_keeps keeps (fun _ => none) 1)
    have start : scanner.next.token.span.start = scanner.position := scan_start keeps _
    refine ⟨scanner.next.token :: listed, ending, rfl, ?_⟩
    exact {
      unfinished := List.forall_mem_cons.mpr ⟨unfinished, rest.unfinished⟩
      ended := rest.ended
      adjoining := ⟨start, start ▸ read.start_lt_stop keeps unfinished, rest.adjoining⟩
      stop := rest.stop.trans (next.position_add_rest.trans read.position_add_rest.symm)
      whole := by
        rw [List.flatMap_cons, List.append_assoc, rest.whole, split]
      remainder := rest.remainder
      sourceText := List.forall_mem_cons.mpr ⟨covered, rest.sourceText⟩ }

end Scanner

namespace Covers

variable {viewer : Scanner} {start : Nat} {text : List Char} {listed : List Token} {ending : Token}

/-- Other lines do not change what is covered. -/
theorem withLines (covers : Covers viewer start text listed ending) (lines : LineTable) :
    Covers viewer start text (listed.map (·.withLines lines)) (ending.withLines lines) where
  unfinished := List.forall_mem_map.mpr covers.unfinished
  ended := covers.ended
  adjoining := by
    rw [List.map_map]
    exact covers.adjoining
  stop := covers.stop
  whole := by
    rw [List.flatMap_map]
    exact covers.whole
  remainder := covers.remainder
  sourceText := by
    have together : listed.map (·.withLines lines) ++ [ending.withLines lines] =
        (listed ++ [ending]).map (·.withLines lines) := by rw [List.map_append, List.map_singleton]
    rw [together]
    exact List.forall_mem_map.mpr covers.sourceText

/-- What is listed is all but the end of file. -/
theorem filter_eq (covers : Covers viewer start text listed ending) :
    (listed ++ [ending]).filter (fun token => token.kind != .endOfFile) = listed := by
  have kept : listed.filter (fun token => token.kind != .endOfFile) = listed :=
    List.filter_eq_self.mpr fun token member => bne_iff_ne.mpr (covers.unfinished token member)
  rw [List.filter_append, kept]
  simp [covers.ended]

end Covers

end ScriptSyntax
