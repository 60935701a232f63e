import ScriptSyntax.Proofs.Scanner.InStep
import ScriptSyntax.Proofs.Source.Translation

/-! Where a text begins in its document makes no difference to how it is read. Every step of
a scan moves along with the text, and so does all that it gives. -/
namespace ScriptSyntax

namespace Span

variable {span : Span} {table : LineTable}

def movedTo (span : Span) (origin : Location) : Span where
  start := origin.index + span.start
  stop := origin.index + span.stop
  kind := span.kind
  lines := span.lines.map (·.movedTo origin)

theorem locate_movedTo (lines : span.lines = some table) (begins : table.initial = .start)
    (origin : Location) (index : Nat) :
    (span.movedTo origin).locate (origin.index + index) = (span.locate index).movedTo origin := by
  simp only [locate, movedTo, lines, Option.map_some]
  exact table.locate_movedTo begins origin index

end Span

def Report.movedTo (report : Report) (origin : Location) : Report :=
  { report with span := report.span.movedTo origin }

/-- The same diagnostic of a text that begins at `origin`. -/
def Diagnostic.movedTo (diagnostic : Diagnostic) (origin : Location) : Diagnostic :=
  { diagnostic with
    start := origin.index + diagnostic.start
    stop := origin.index + diagnostic.stop
    location := diagnostic.location.movedTo origin }

theorem DiagnosticLog.resolve_movedTo (log : DiagnosticLog) {report : Report} {table : LineTable}
    (lines : report.span.lines = some table) (begins : table.initial = .start)
    (origin : Location) :
    log.resolve (report.movedTo origin) = (log.resolve report).movedTo origin := by
  have located : (report.movedTo origin).span.startLocation =
      report.span.startLocation.movedTo origin :=
    Span.locate_movedTo lines begins origin report.span.start
  rw [resolve, located]
  rfl

def LocatedToken.movedTo (token : LocatedToken) (origin : Location) : LocatedToken :=
  { token with start := token.start.movedTo origin, stop := token.stop.movedTo origin }

def ToldToken.movedTo (token : ToldToken) (origin : Location) : ToldToken :=
  { token with toLocatedToken := token.toLocatedToken.movedTo origin }

namespace Token

def movedTo (token : Token) (origin : Location) : Token :=
  { token with span := token.span.movedTo origin }

theorem told_movedTo {token : Token} {table : LineTable} (lines : token.span.lines = some table)
    (begins : table.initial = .start) (origin : Location) :
    (token.movedTo origin).told = token.told.movedTo origin := by
  have start : (token.movedTo origin).span.startLocation =
      token.span.startLocation.movedTo origin :=
    Span.locate_movedTo lines begins origin token.span.start
  have stop : (token.movedTo origin).span.stopLocation =
      token.span.stopLocation.movedTo origin :=
    Span.locate_movedTo lines begins origin token.span.stop
  rw [told, located, start, stop]
  rfl

end Token

namespace Scanner

def movedTo (scanner : Scanner) (origin : Location) : Scanner :=
  { scanner with
    lines := scanner.lines.movedTo origin
    last := scanner.last.movedTo origin }

end Scanner

def ScanStep.movedTo (step : ScanStep) (origin : Location) : ScanStep where
  scanner := step.scanner.movedTo origin
  reports := step.reports.map (·.movedTo origin)

def Scan.movedTo (scan : Scan) (origin : Location) : Scan where
  tokens := scan.tokens.map (·.movedTo origin)
  reports := scan.reports.map (·.movedTo origin)
  scanner := scan.scanner.movedTo origin

namespace Scanner

theorem movedTo_accept (scanner : Scanner) (origin : Location) (lexeme : Lexeme)
    (rest : List Char) :
    (scanner.movedTo origin).accept lexeme rest = (scanner.accept lexeme rest).movedTo origin := by
  have position (offset : Nat) : (scanner.movedTo origin).position + offset =
      origin.index + (scanner.position + offset) :=
    Nat.add_assoc ..
  have lines (breaks : List Nat) :
      (scanner.movedTo origin).lines.recordAll (breaks.map fun offset =>
          origin.index + (scanner.position + offset)) =
        (scanner.lines.recordAll (breaks.map (scanner.position + ·))).movedTo origin := by
    rw [← LineTable.movedTo_recordAll, List.map_map]
    rfl
  simp only [accept, position, lines]
  simp only [ScanStep.movedTo, List.map_map]
  rfl

theorem movedTo_readLexeme (scanner : Scanner) (origin : Location) (regex : Bool) :
    (scanner.movedTo origin).readLexeme regex = (scanner.readLexeme regex).movedTo origin :=
  movedTo_accept scanner origin _ _

theorem movedTo_scan (scanner : Scanner) (origin : Location) (regex : Bool) :
    (scanner.movedTo origin).scan regex = (scanner.scan regex).movedTo origin := by
  fun_induction scan scanner regex with
  | case1 scanner step skipped final ih =>
    have skips : (scanner.movedTo origin).options.skipTrivia = true ∧
        (step.movedTo origin).token.kind.isTrivia = true := skipped
    have later : ((scanner.readLexeme regex).movedTo origin).scanner.scan regex =
        final.movedTo origin := ih
    rw [scan, movedTo_readLexeme, dif_pos skips]
    simp only [later]
    simp only [step, ScanStep.movedTo, List.map_append]
  | case2 scanner step kept =>
    have keeps : ¬ ((scanner.movedTo origin).options.skipTrivia = true ∧
        (step.movedTo origin).token.kind.isTrivia = true) := kept
    rw [scan, movedTo_readLexeme, dif_neg keeps]

theorem movedTo_next (scanner : Scanner) (origin : Location) :
    (scanner.movedTo origin).next = scanner.next.movedTo origin :=
  movedTo_scan scanner origin scanner.allowsRegex

variable {scanner final : Scanner} {tokens : List Token} {reports : List Report}

theorem Reads.movedTo (reads : Reads scanner tokens reports final) (origin : Location) :
    Reads (scanner.movedTo origin) (tokens.map (·.movedTo origin))
      (reports.map (·.movedTo origin)) (final.movedTo origin) := by
  induction reads with
  | @last scanner ended =>
    have step := movedTo_next scanner origin
    have moved : (scanner.movedTo origin).next.token.kind = .endOfFile := by
      rw [step]
      exact ended
    have whole := Reads.last moved
    rwa [step] at whole
  | @more scanner final tokens reports unfinished later ih =>
    have step := movedTo_next scanner origin
    have moved : (scanner.movedTo origin).next.token.kind ≠ .endOfFile := by
      rw [step]
      exact unfinished
    have behind : Reads (scanner.movedTo origin).next.scanner (tokens.map (·.movedTo origin))
        (reports.map (·.movedTo origin)) (final.movedTo origin) := by
      rw [step]
      exact ih
    have whole := Reads.more moved behind
    rw [step] at whole
    rw [List.map_append]
    exact whole

theorem movedTo_scanAll (scanner : Scanner) (origin : Location) :
    (scanner.movedTo origin).scanAll = scanner.scanAll.movedTo origin := by
  obtain ⟨tokens, reads, same⟩ := scanner.scanAll_reads
  rw [(reads.movedTo origin).scanAll_eq, Scan.movedTo, same, List.map_map, List.map_map]
  rfl

theorem movedTo_resume (options : ScanOptions) (chunk : List Char) (inComment : Bool)
    (origin : Location) :
    (resume options chunk inComment .start).movedTo origin =
      resume options chunk inComment origin := by
  have base : origin.index + Location.start.index = origin.index := Nat.add_zero _
  simp [resume, movedTo, Token.movedTo, Token.before, Span.movedTo, LineTable.movedTo, base]

end Scanner

open Scanner in
/-- A scan does not depend on where the text begins. With the text at `origin` in its
document it gives what it gives with the text at the start of one: kinds, values and flags
of the tokens are the same, and so is the comment left open; offsets and lines of tokens,
diagnostics and the line table have moved by those of `origin`, and columns on the first
line by its column. -/
theorem scanAll_movedTo (options : ScanOptions) (inComment : Bool) (source : List Char)
    (origin : Location) :
    let scan (initial : Location) := (resume options source inComment initial).scanAll
    (scan origin).tokens.map Token.told = (scan .start).tokens.map (·.told.movedTo origin) ∧
    (∀ log : DiagnosticLog, (scan origin).reports.map log.resolve =
      (scan .start).reports.map fun report => (log.resolve report).movedTo origin) ∧
    (∀ index, (scan origin).scanner.lines.locate (origin.index + index) =
      ((scan .start).scanner.lines.locate index).movedTo origin) ∧
    (scan origin).scanner.inComment = (scan .start).scanner.inComment := by
  intro scan
  have moved : scan origin = (scan .start).movedTo origin := by
    rw [← movedTo_scanAll, movedTo_resume]
  have begun : (resume options source inComment .start).HasRead source .start [] :=
    hasRead_resume options source inComment .start
  obtain ⟨tokens, reads, same⟩ := (resume options source inComment .start).scanAll_reads
  obtain ⟨lines, reports⟩ := reads.located begun
  have begins : (scan .start).scanner.lines.initial = .start := by
    rw [lines, LineTable.ofText_initial]
  rw [moved]
  refine ⟨?_, ?_, ?_, rfl⟩
  · rw [Scan.movedTo, List.map_map]
    apply List.map_congr_left
    intro token member
    rw [same] at member
    obtain ⟨read, -, rfl⟩ := List.mem_map.mp member
    exact Token.told_movedTo rfl begins origin
  · intro log
    rw [Scan.movedTo, List.map_map]
    apply List.map_congr_left
    intro report member
    obtain ⟨position, -, placed⟩ := reports report member
    obtain ⟨table, own, upTo⟩ := placed.lines
    exact log.resolve_movedTo own upTo.begins origin
  · exact LineTable.locate_movedTo begins origin

end ScriptSyntax
