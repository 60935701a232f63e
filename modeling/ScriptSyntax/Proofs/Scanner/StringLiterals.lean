import ScriptSyntax.Proofs.Lexeme.Spellings
import ScriptSyntax.Proofs.Scanner.Lossless

/-! What a scanner makes of a string: how far it goes, when it is reported as cut off, and
that every way to spell a text gives that text back. -/
namespace ScriptSyntax

namespace Scanner

variable {scanner : Scanner} {quote : Char} {text value : List Char}

theorem scan_of_finished (ended : scanner.rest = []) (regex : Bool) :
    scanner.scan regex = scanner.accept
      { kind := .endOfFile, text := [], endsInComment := scanner.inComment } [] := by
  apply scan_of_read _ rfl
  rw [ended]
  rfl

theorem scan_of_quote (delimits : IsQuote quote) (outside : scanner.inComment = false)
    (ahead : scanner.rest = quote :: text) (regex : Bool) :
    scanner.scan regex = scanner.accept (Lexeme.stringLiteral quote text).1
      (Lexeme.stringLiteral quote text).2 := by
  apply scan_of_read _ rfl
  rw [ahead, Lexeme.read_of_quote outside delimits]

end Scanner

open Scanner in
/-- Where a string ends. Wherever a quote begins one, the token is the quote with the text
up to the first unit that stops it: its bare quote, which is taken along, or a bare line
terminator, which is not; else it goes on to the end of input. It is reported as
unterminated just if its quote was not met, once and with its own range. -/
theorem scan_string_extent {scanner : Scanner} {quote : Char} {text : List Char}
    (delimits : IsQuote quote) (outside : scanner.inComment = false)
    (ahead : scanner.rest = quote :: text) (regex : Bool) :
    let step := scanner.scan regex
    let literal := quote :: stringExtent quote (stringUnits text)
    step.token.kind = .stringLiteral ∧
    step.token.text = String.ofList literal ∧
    step.token.span.start = scanner.position ∧
    step.token.span.stop = scanner.position + literal.length ∧
    literal ++ step.scanner.rest = scanner.rest ∧
    (step.reports.filter fun report => report.problem = .unterminatedString).map
        (fun report => (report.span.start, report.span.stop)) =
      if meetsQuote quote (stringUnits text) then []
      else [(step.token.span.start, step.token.span.stop)] := by
  intro step literal
  have reads : step = _ := scan_of_quote delimits outside ahead regex
  have taken : (Lexeme.stringLiteral quote text).1.text = literal :=
    Lexeme.stringLiteral_text delimits text
  have whole := Lexeme.stringLiteral_append quote text
  rw [taken, ← ahead] at whole
  have unterminated := Lexeme.stringLiteral_unterminated delimits text
  rw [reads]
  refine ⟨rfl, congrArg String.ofList taken, rfl, ?_, whole, ?_⟩
  · exact congrArg (fun taken : List Char => scanner.position + taken.length) taken
  · simp only [accept, List.filter_map, List.map_map, ScanStep.token, Function.comp_def,
      unterminated]
    split <;> rfl

open Scanner in
/-- An escape without its digits, cut off by the end of the line. -/
theorem scan_string_extent_of_cut_escape :
    let scanner := start {} ['"', '\\', 'x', '\n', '"']
    let step := scanner.scan false
    IsQuote '"' ∧ scanner.inComment = false ∧ scanner.rest = '"' :: ['\\', 'x', '\n', '"'] ∧
    step.token.text = "\"\\x" ∧ step.scanner.rest = ['\n', '"'] ∧
    (step.reports.filter fun report => report.problem = .unterminatedString).map
      (fun report => (report.span.start, report.span.stop)) = [(0, 3)] := by
  intro scanner step
  have delimits : IsQuote '"' := .inl rfl
  have outside : scanner.inComment = false := rfl
  have ahead : scanner.rest = '"' :: ['\\', 'x', '\n', '"'] := rfl
  have extent : stringExtent '"' (stringUnits ['\\', 'x', '\n', '"']) = ['\\', 'x'] := by decide
  have unclosed : meetsQuote '"' (stringUnits ['\\', 'x', '\n', '"']) = false := by decide
  obtain ⟨-, covers, start, stop, rest, reported⟩ :=
    scan_string_extent delimits outside ahead false
  rw [extent] at covers stop rest
  rw [unclosed, start, stop] at reported
  exact ⟨delimits, outside, ahead, covers, List.append_cancel_left rest, reported⟩

open Scanner in
/-- Strings read back as what they spell. Between two quotes any choice of spellings for the
characters of a text, with lines continued anywhere, is read as one string with that text as
its value, whatever comes behind it; nothing is reported. A source that holds nothing else
gives that token and the end of file. -/
theorem scan_spelling {quote : Char} {text value : List Char} (delimits : IsQuote quote)
    (spelling : Spelling quote text value) :
    let literal := quote :: text ++ [quote]
    (∀ (scanner : Scanner) (rest : List Char) (regex : Bool),
      scanner.inComment = false → scanner.rest = literal ++ rest →
      let step := scanner.scan regex
      step.token.kind = .stringLiteral ∧
      step.token.text = String.ofList literal ∧
      step.token.span.start = scanner.position ∧
      step.token.span.stop = scanner.position + literal.length ∧
      step.token.value = String.ofList value ∧
      step.reports = [] ∧ step.scanner.rest = rest) ∧
    ∀ (options : ScanOptions) (initial : Location),
      let scan := (resume options literal false initial).scanAll
      let ending := initial.index + literal.length
      scan.tokens.map (fun token =>
          (token.kind, token.span.start, token.span.stop, token.text, token.value)) =
        [(.stringLiteral, initial.index, ending, String.ofList literal, String.ofList value),
          (.endOfFile, ending, ending, "", "")] ∧
      scan.reports = [] := by
  intro literal
  have first (scanner : Scanner) (rest : List Char) (regex : Bool)
      (outside : scanner.inComment = false) (ahead : scanner.rest = literal ++ rest) :
      ∃ breaks, scanner.scan regex = scanner.accept
        { kind := .stringLiteral, text := literal, value, breaks } rest := by
    obtain ⟨breaks, body⟩ := stringBody_spelling delimits spelling 1 rest
    have ahead : scanner.rest = quote :: (text ++ quote :: rest) := by
      rw [ahead]
      simp [literal]
    refine ⟨breaks, ?_⟩
    rw [scan_of_quote delimits outside ahead]
    simp only [Lexeme.stringLiteral, body]
    rfl
  refine ⟨?_, ?_⟩
  · intro scanner rest regex outside ahead step
    obtain ⟨breaks, same⟩ := first scanner rest regex outside ahead
    have reads : step = _ := same
    rw [reads]
    exact ⟨rfl, rfl, rfl, rfl, rfl, rfl, rfl⟩
  · intro options initial scan ending
    let scanner := resume options literal false initial
    obtain ⟨breaks, string⟩ :=
      first scanner [] scanner.allowsRegex rfl (List.append_nil literal).symm
    change scanner.next = _ at string
    have ended : scanner.next.scanner.rest = [] := by rw [string]; rfl
    have outside : scanner.next.scanner.inComment = false := by rw [string]; rfl
    have last : scanner.next.scanner.next = _ := scan_of_finished ended _
    have reads : Reads scanner [scanner.next.token, scanner.next.scanner.next.token]
        (scanner.next.reports ++ scanner.next.scanner.next.reports)
        scanner.next.scanner.next.scanner := by
      refine .more ?_ (.last ?_)
      · rw [string]
        simp [accept, ScanStep.token, Token.kind]
      · rw [last]
        rfl
    have all : scan = _ := reads.scanAll_eq
    rw [all, last, outside, string]
    exact ⟨rfl, rfl⟩

/-- Four digits, the highest first. -/
private theorem spellsHex_four {a b c d : Char} {i j k l : Nat} (first : IsHexDigitOf i a)
    (second : IsHexDigitOf j b) (third : IsHexDigitOf k c) (fourth : IsHexDigitOf l d) :
    SpellsHex [a, b, c, d] (16 * (16 * (16 * i + j) + k) + l) := by
  have one : SpellsHex [a] (16 * 0 + i) := .digit .nil first
  rw [Nat.mul_zero, Nat.zero_add] at one
  exact .digit (.digit (.digit one second) third) fourth

open Scanner in
/-- A code before a digit, a continued line and a pair, one after another. -/
theorem scan_spelling_of_neighbours :
    let text := ['\\', 'x', '4', '1', '1', '\\', '\r', '\\', 'u', 'd', '8', '3', 'D',
      '\\', 'u', 'D', 'e', '0', '0']
    let scan := (start {} ('"' :: text ++ ['"'])).scanAll
    IsQuote '"' ∧ Spelling '"' text ['A', '1', '😀'] ∧
    scan.tokens.map (fun token =>
        (token.kind, token.span.start, token.span.stop, token.text, token.value)) =
      [(.stringLiteral, 0, 21, "\"\\x411\\\r\\ud83D\\uDe00\"", "A1😀"), (.endOfFile, 21, 21, "", "")] ∧
    scan.reports = [] := by
  intro text scan
  have delimits : IsQuote '"' := .inl rfl
  have code : SpellsHex ['4', '1'] 'A'.toNat :=
    .digit (.digit .nil (show IsHexDigitOf 4 '4' by decide)) (show IsHexDigitOf 1 '1' by decide)
  have high : SpellsHex ['d', '8', '3', 'D'] (0xd800 + ('😀'.toNat - 0x10000) / 0x400) :=
    spellsHex_four (i := 13) (j := 8) (k := 3) (l := 13)
      (by decide) (by decide) (by decide) (by decide)
  have low : SpellsHex ['D', 'e', '0', '0'] (0xdc00 + ('😀'.toNat - 0x10000) % 0x400) :=
    spellsHex_four (i := 13) (j := 14) (k := 0) (l := 0)
      (by decide) (by decide) (by decide) (by decide)
  have spelling : Spelling '"' text ['A', '1', '😀'] :=
    .character (.byte rfl code) <|
    .character (.plain (by decide) (by decide) (by decide)) <|
    .continued (.single (by decide)) <|
    .character (.pair (by decide) rfl rfl high low) .nil
  obtain ⟨tokens, reports⟩ := (scan_spelling delimits spelling).2 {} .start
  exact ⟨delimits, spelling, tokens, reports⟩

end ScriptSyntax
