import ScriptSyntax.Proofs.Lexeme.Alone
import ScriptSyntax.Proofs.Scanner.Lossless

/-! Tokens alone. A scanner that is given the text of a token and nothing else reads that
token and reports the same of it: nothing in a token comes from the text around it. -/
namespace ScriptSyntax

/-- A diagnostic `offset` characters further on. Its line and column are left out. -/
def Diagnostic.furtherBy (diagnostic : Diagnostic) (offset : Nat) : Diagnostic :=
  { diagnostic with
    start := offset + diagnostic.start
    stop := offset + diagnostic.stop
    location := .start }

namespace Scanner

variable {scanner : Scanner} {regex : Bool}

/-- Inside a comment only a comment or the end of input is read. -/
theorem outside_of_kind (unfinished : (scanner.readLexeme regex).token.kind ≠ .endOfFile)
    (begun : scanner.inComment = true →
      (scanner.readLexeme regex).token.kind ≠ .blockComment) : scanner.inComment = false := by
  by_contra open_
  have inside : scanner.inComment = true := by simpa using open_
  cases ahead : scanner.rest with
  | nil =>
    apply unfinished
    rw [readLexeme, ahead]
    rfl
  | cons c rest =>
    apply begun inside
    have comment : Lexeme.read (scanner.lexMode regex) (c :: rest) = _ :=
      Lexeme.read_of_inComment inside c rest
    rw [readLexeme, ahead, comment]
    rfl

/-- What a scanner reads next is what a fresh scanner reads from its text alone. -/
theorem readLexeme_alone (outside : scanner.inComment = false)
    (alone : Lexeme.StandsAlone (Lexeme.read (scanner.lexMode regex)) scanner.rest) :
    (start scanner.options (scanner.lexeme regex).text).readLexeme regex =
      (start scanner.options (scanner.lexeme regex).text).accept (scanner.lexeme regex) [] := by
  have mode : (start scanner.options (scanner.lexeme regex).text).lexMode regex =
      scanner.lexMode regex := by
    rw [lexMode, lexMode, outside]
    rfl
  have reads : Lexeme.read (scanner.lexMode regex) (scanner.lexeme regex).text =
      (scanner.lexeme regex, []) := alone
  rw [readLexeme, mode]
  exact congrArg (fun found =>
    (start scanner.options (scanner.lexeme regex).text).accept found.1 found.2) reads

/-- What is reported of a lexeme is what is wrong with its text, where it stands. -/
theorem accept_furtherBy (scanner : Scanner) (lexeme : Lexeme) (rest : List Char)
    (log : DiagnosticLog) (offset : Nat) :
    (scanner.accept lexeme rest).reports.map
        (fun report => (log.resolve report).furtherBy offset) =
      lexeme.flaws.map fun flaw =>
        ((Diagnostic.ofProblem flaw.problem flaw.start flaw.stop .start).withSeverity
          (log.severityFor flaw.problem)).furtherBy (offset + scanner.position) := by
  simp only [accept, List.map_map]
  apply List.map_congr_left
  intro flaw _
  simp only [Function.comp, DiagnosticLog.resolve, Diagnostic.furtherBy, Diagnostic.withSeverity,
    Diagnostic.ofProblem, Nat.add_assoc]

end Scanner

open Scanner in
/-- Tokens are local. Where trivia are kept, take any token but the end of file, a comment
that goes on from an earlier chunk, and the error that a null character is. A fresh scanner
that is given its text alone, with the same options and the same leave, reads a token of the
same kind off all of that text, with the same value, number and flags, and reports the same
of it, at the same distance from its start. -/
theorem scan_alone (scanner : Scanner) (regex : Bool)
    (keeps : scanner.options.skipTrivia = false) :
    let step := scanner.scan regex
    let alone := (start scanner.options step.token.text.toList).scan regex
    step.token.kind ≠ .endOfFile →
    (scanner.inComment = true → step.token.kind ≠ .blockComment) →
    ¬ (step.token.kind = .error ∧ step.token.text = "\x00") →
      alone.token.kind = step.token.kind ∧
      alone.token.span.start = 0 ∧
      alone.token.span.stop = step.token.text.length ∧
      alone.scanner.rest = [] ∧
      alone.token.text = step.token.text ∧
      alone.token.value = step.token.value ∧
      alone.token.number = step.token.number ∧
      alone.token.flags = step.token.flags ∧
      ∀ log : DiagnosticLog,
        step.reports.map (fun report => (log.resolve report).furtherBy 0) =
          alone.reports.map fun report => (log.resolve report).furtherBy step.token.span.start := by
  intro step alone unfinished begun noNull
  have reads : step = scanner.readLexeme regex := scan_eq_readLexeme keeps regex
  rw [reads] at unfinished begun noNull
  have outside := outside_of_kind unfinished begun
  have local_ : Lexeme.StandsAlone (Lexeme.read (scanner.lexMode regex)) scanner.rest := by
    apply Lexeme.read_alone outside unfinished
    rintro ⟨kind, text⟩
    exact noNull ⟨kind, congrArg String.ofList text⟩
  have text : step.token.text.toList = (scanner.lexeme regex).text := by
    rw [reads]
    exact String.toList_ofList
  have again : alone = (start scanner.options (scanner.lexeme regex).text).accept
      (scanner.lexeme regex) [] := by
    have kept : (start scanner.options step.token.text.toList).options.skipTrivia = false := keeps
    rw [← readLexeme_alone outside local_, ← text]
    exact scan_eq_readLexeme kept regex
  have length : step.token.text.length = (scanner.lexeme regex).text.length := by
    rw [← String.length_toList, text]
  rw [again, reads]
  refine ⟨rfl, rfl, ?_, rfl, rfl, rfl, rfl, rfl, ?_⟩
  · rw [← reads, length]
    exact Nat.zero_add _
  · intro log
    have told := accept_furtherBy scanner (scanner.lexeme regex)
      (scanner.readLexeme regex).scanner.rest log 0
    have toldAlone := accept_furtherBy (start scanner.options (scanner.lexeme regex).text)
      (scanner.lexeme regex) [] log scanner.position
    have origin : (start scanner.options (scanner.lexeme regex).text).position = 0 := rfl
    rw [Nat.zero_add] at told
    rw [origin, Nat.add_zero] at toldAlone
    exact told.trans toldAlone.symm

open Scanner in
/-- A number whose exponent has no digits, behind a blank and before a sign. -/
theorem scan_alone_of_cut_exponent :
    let scanner := ((start {} [' ', '1', 'e', '+', 'x']).scan false).scanner
    let step := scanner.scan false
    let alone := (start {} ['1', 'e']).scan false
    scanner.options.skipTrivia = false ∧ scanner.inComment = false ∧
    step.token.kind = .numeral ∧ step.token.span.start = 1 ∧ step.token.text = "1e" ∧
    alone.token.kind = .numeral ∧ alone.token.span.stop = 2 ∧ alone.token.value = "1e" ∧
    step.reports.map (fun report => (report.problem, report.span.start, report.span.stop)) =
      [(.badNumeral, 1, 3)] ∧
    ∀ log : DiagnosticLog,
      step.reports.map (fun report => (log.resolve report).furtherBy 0) =
        alone.reports.map fun report => (log.resolve report).furtherBy 1 := by
  intro scanner step alone
  have behind : scanner = ((start {} [' ', '1', 'e', '+', 'x']).readLexeme false).scanner :=
    congrArg ScanStep.scanner (scan_eq_readLexeme rfl false)
  have options : scanner.options = {} := by rw [behind]; rfl
  have keeps : scanner.options.skipTrivia = false := by rw [options]
  have outside : scanner.inComment = false := by rw [behind]; rfl
  have reads : step = scanner.readLexeme false := scan_eq_readLexeme keeps false
  have kind : step.token.kind = .numeral := by rw [reads, behind]; rfl
  have begins : step.token.span.start = 1 := by rw [reads, behind]; rfl
  have text : step.token.text = "1e" := by rw [reads, behind]; rfl
  have value : step.token.value = "1e" := by rw [reads, behind]; rfl
  have reported : step.reports.map
      (fun report => (report.problem, report.span.start, report.span.stop)) =
        [(.badNumeral, 1, 3)] := by rw [reads, behind]; rfl
  have unfinished : step.token.kind ≠ .endOfFile := by rw [kind]; decide
  have noComment : step.token.kind ≠ .blockComment := by rw [kind]; decide
  have noError : step.token.kind ≠ .error := by rw [kind]; decide
  have same : (start scanner.options step.token.text.toList).scan false = alone := by
    rw [text, options]
    rfl
  obtain ⟨sameKind, -, stop, -, -, sameValue, -, -, shifted⟩ := scan_alone scanner false keeps
    unfinished (fun _ => noComment) (fun null => noError null.1)
  rw [same] at sameKind stop sameValue shifted
  exact ⟨keeps, outside, kind, begins, text, sameKind.trans kind, stop.trans (text ▸ rfl),
    sameValue.trans value, reported, begins ▸ shifted⟩

end ScriptSyntax
