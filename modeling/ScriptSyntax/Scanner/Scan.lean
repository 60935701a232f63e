import ScriptSyntax.Lexeme.Reader
import ScriptSyntax.Problem.Diagnostic
import ScriptSyntax.Scanner.Basic

/-! Reading tokens one at a time or all at once. Every lexeme is placed where the last
one ended; its line starts go into the table and its problems are reported. Offsets are counted
without end here: what callers get of them are the words of `Span.startWord`, `Span.startPlace`,
`DiagnosticLog.keep` and `Scanner.lineIndex`. -/
namespace ScriptSyntax

/-- A scanner that has read on, and the problems met on the way. -/
structure ScanStep where
  scanner : Scanner
  reports : List Report
  deriving DecidableEq, Repr

/-- The token that was read. -/
def ScanStep.token (step : ScanStep) : Token := step.scanner.last

namespace Scanner

def lexMode (scanner : Scanner) (regex : Bool) : LexMode where
  strict := scanner.options.strict
  regex
  inComment := scanner.inComment

/-- Whether a line terminator separates the significant tokens around `lexeme`: one
was seen before it, or it is a line end or a comment with a line end in it. -/
def breakBefore (scanner : Scanner) (lexeme : Lexeme) : Bool :=
  (scanner.last.kind.isTrivia && scanner.last.afterLineBreak) ||
  (!lexeme.breaks.isEmpty && (lexeme.kind == .endOfLine || lexeme.kind == .blockComment))

/-- The scanner after `lexeme`, with `rest` left to read. A problem is reported when
reading has come to its end, and is resolved with the lines that have begun by then. -/
def accept (scanner : Scanner) (lexeme : Lexeme) (rest : List Char) : ScanStep :=
  let start := scanner.position
  let linesBy (breaks : List Nat) := scanner.lines.recordAll (breaks.map (start + ·))
  let lines := linesBy lexeme.breaks
  let token : Token :=
    { span := {
        start
        stop := start + lexeme.text.length
        kind := lexeme.kind
        lines := some lines }
      text := String.ofList lexeme.text
      value := String.ofList lexeme.value
      number := lexeme.number
      flags := lexeme.flags.map String.ofList
      afterLineBreak := scanner.breakBefore lexeme }
  { scanner :=
      { scanner with
        rest
        lines
        last := token
        lastSignificant :=
          if lexeme.kind.isTrivia then scanner.lastSignificant else some lexeme.kind
        inComment := lexeme.endsInComment }
    reports := lexeme.flaws.map fun flaw =>
      { problem := flaw.problem
        span := {
          start := start + flaw.start
          stop := start + flaw.stop
          kind := lexeme.kind
          lines := some (linesBy (lexeme.breaks.filter (· ≤ flaw.stop))) } } }

/-- Read one lexeme. `regex` says that a slash may begin a regular expression here. -/
def readLexeme (scanner : Scanner) (regex : Bool) : ScanStep :=
  let (lexeme, rest) := Lexeme.read (scanner.lexMode regex) scanner.rest
  scanner.accept lexeme rest

theorem readLexeme_rest_length_lt (scanner : Scanner) (regex : Bool)
    (unfinished : (scanner.readLexeme regex).token.kind ≠ .endOfFile) :
    (scanner.readLexeme regex).scanner.rest.length < scanner.rest.length := by
  apply Lexeme.read_rest_length_lt
  intro empty
  apply unfinished
  simp [readLexeme, empty, Lexeme.read, accept, ScanStep.token, Token.kind]

/-- Read one token. Trivia are read over when they are to be left out. -/
def scan (scanner : Scanner) (regex : Bool) : ScanStep :=
  let step := scanner.readLexeme regex
  if _skipped : scanner.options.skipTrivia ∧ step.token.kind.isTrivia then
    let final := step.scanner.scan regex
    { final with reports := step.reports ++ final.reports }
  else step
  termination_by scanner.rest.length
  decreasing_by
    apply readLexeme_rest_length_lt
    intro ended
    simp [step, ended, TokenKind.isTrivia] at _skipped

/-- A slash begins a regular expression unless the last significant token can end an
operand. -/
def allowsRegex (scanner : Scanner) : Bool := TokenKind.allowsRegexAfter scanner.lastSignificant

/-- Read one token, telling regular expressions from divisions by the token before. -/
def next (scanner : Scanner) : ScanStep := scanner.scan scanner.allowsRegex

theorem scan_rest_length_lt (scanner : Scanner) (regex : Bool)
    (unfinished : (scanner.scan regex).token.kind ≠ .endOfFile) :
    (scanner.scan regex).scanner.rest.length < scanner.rest.length := by
  fun_induction scan scanner regex with
  | case1 scanner step skipped final ih =>
    have shorter : step.scanner.rest.length < scanner.rest.length := by
      apply readLexeme_rest_length_lt
      intro ended
      simp [step, ended, TokenKind.isTrivia] at skipped
    exact Nat.lt_trans (ih unfinished) shorter
  | case2 scanner step kept => exact readLexeme_rest_length_lt scanner regex unfinished

/-- The next token for a reader that stops after the end-of-file token. -/
def next? (scanner : Scanner) : Option ScanStep :=
  if scanner.isFinished then none
  else
    let step := scanner.next
    some { step with
      scanner := { step.scanner with isFinished := step.token.kind == .endOfFile } }

end Scanner

/-- All that reading to the end of input gives. -/
structure Scan where
  /-- The tokens in order, the last of which is the end of file. -/
  tokens : List Token
  reports : List Report
  scanner : Scanner
  deriving DecidableEq, Repr

namespace Scanner

/-- Read to the end of input, behind the tokens and reports already there, latest
first. -/
def scanOnto (scanner : Scanner) (tokens : List Token) (reports : List Report) : Scan :=
  let step := scanner.next
  let tokens := step.token :: tokens
  let reports := step.reports.reverse ++ reports
  if _ended : step.token.kind = .endOfFile then
    { tokens := tokens.reverse, reports := reports.reverse, scanner := step.scanner }
  else step.scanner.scanOnto tokens reports
  termination_by scanner.rest.length
  decreasing_by exact scan_rest_length_lt scanner _ _ended

/-- Read to the end of input. The tokens share the line table of the finished scan. -/
def scanAll (scanner : Scanner) : Scan :=
  let scan := scanner.scanOnto [] []
  { scan with tokens := scan.tokens.map (·.withLines scan.scanner.lines) }

end Scanner

end ScriptSyntax
