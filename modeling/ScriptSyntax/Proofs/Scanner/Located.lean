import ScriptSyntax.Proofs.Scanner.Lines
import ScriptSyntax.Proofs.Scanner.Lossless

/-! Tokens and problems with their places resolved. They are those of the lexemes, placed
in the table of the whole source. -/
namespace ScriptSyntax

open LineTable

/-- A token with its ends resolved, and all that its text says. -/
structure LocatedToken where
  kind : TokenKind
  start : Location
  stop : Location
  text : String
  value : String
  number : Binary64
  flags : Option String
  deriving DecidableEq, Repr

def Token.located (token : Token) : LocatedToken where
  kind := token.kind
  start := token.span.startLocation
  stop := token.span.stopLocation
  text := token.text
  value := token.value
  number := token.number
  flags := token.flags

@[simp] theorem Token.located_start_index (token : Token) :
    token.located.start.index = token.span.start := by
  rw [located, Span.startLocation, Span.locate]
  split
  · exact locate_index _ _
  · rfl

namespace Lexeme

/-- The token that a lexeme becomes where it begins at `start`. -/
def locatedIn (lexeme : Lexeme) (table : LineTable) (start : Nat) : LocatedToken where
  kind := lexeme.kind
  start := table.locate start
  stop := table.locate (start + lexeme.text.length)
  text := String.ofList lexeme.text
  value := String.ofList lexeme.value
  number := lexeme.number
  flags := lexeme.flags.map String.ofList

/-- The diagnostics that the flaws of a lexeme become where it begins at `start`. -/
def diagnosedIn (lexeme : Lexeme) (log : DiagnosticLog) (table : LineTable) (start : Nat) :
    List Diagnostic :=
  lexeme.flaws.map fun flaw =>
    (Diagnostic.ofProblem flaw.problem (start + flaw.start) (start + flaw.stop)
      (table.locate (start + flaw.start))).withSeverity (log.severityFor flaw.problem)

variable {left right : LineTable} {start : Nat}

theorem locatedIn_congr (lexeme : Lexeme)
    (agree : ∀ index ≥ start, left.locate index = right.locate index) :
    lexeme.locatedIn left start = lexeme.locatedIn right start := by
  simp only [locatedIn, agree start (Nat.le_refl _), agree _ (Nat.le_add_right start _)]

theorem diagnosedIn_congr (lexeme : Lexeme) (log : DiagnosticLog)
    (agree : ∀ index ≥ start, left.locate index = right.locate index) :
    lexeme.diagnosedIn log left start = lexeme.diagnosedIn log right start := by
  simp only [diagnosedIn, agree _ (Nat.le_add_right start _)]

end Lexeme

/-- A token whose table has all the line starts up to its end. -/
theorem Token.located_withLines {token : Token} {table : LineTable} {source : List Char}
    {initial : Location} (lines : token.span.lines = some table)
    (ordered : token.span.start ≤ token.span.stop)
    (upTo : table.UpTo source initial token.span.stop) :
    (token.withLines (ofText source initial)).located = token.located := by
  have start : token.span.startLocation = (ofText source initial).locate token.span.start := by
    rw [Span.startLocation, Span.locate, lines]
    exact upTo.locate ordered
  have stop : token.span.stopLocation = (ofText source initial).locate token.span.stop := by
    rw [Span.stopLocation, Span.locate, lines]
    exact upTo.locate (Nat.le_refl _)
  simp only [located, start, stop]
  rfl

namespace Scanner

variable {scanner final : Scanner} {source taken : List Char} {initial : Location}
  {tokens : List Token} {reports : List Report}

theorem HasRead.readLexeme_located (read : scanner.HasRead source initial taken) (regex : Bool) :
    (scanner.readLexeme regex).token.located =
      (scanner.lexeme regex).locatedIn (ofText source initial) scanner.position := by
  obtain ⟨next, placed⟩ := read.readLexeme regex
  rw [← Token.located_withLines placed.lines placed.start_le next.upTo]
  rfl

theorem HasRead.readLexeme_diagnosed (read : scanner.HasRead source initial taken)
    (regex : Bool) (log : DiagnosticLog) :
    (scanner.readLexeme regex).reports.map log.resolve =
      (scanner.lexeme regex).diagnosedIn log (ofText source initial) scanner.position := by
  obtain ⟨-, placed⟩ := read.readLexeme regex
  have accepted : scanner.readLexeme regex = scanner.accept (scanner.lexeme regex)
      (Lexeme.read (scanner.lexMode regex) scanner.rest).2 := rfl
  rw [accepted] at placed ⊢
  simp only [Scanner.accept, List.map_map, Lexeme.diagnosedIn]
  apply List.map_congr_left
  intro flaw member
  have located := (placed.reports _ (List.mem_map_of_mem member)).location log
  exact congrArg (fun location => (Diagnostic.ofProblem flaw.problem _ _ location).withSeverity _)
    located

/-- Each token of a scan is located as it was when it was read. -/
theorem Reads.located_withLines (reads : Reads scanner tokens reports final)
    (read : scanner.HasRead source initial taken) :
    ∀ token ∈ tokens, (token.withLines (ofText source initial)).located = token.located := by
  induction reads generalizing taken with
  | @last scanner ended =>
    intro token member
    obtain rfl := List.mem_singleton.mp member
    obtain ⟨⟨more, next⟩, placed⟩ := read.scan scanner.allowsRegex
    exact Token.located_withLines placed.lines placed.start_le next.upTo
  | @more scanner final tokens reports unfinished later ih =>
    intro token member
    obtain ⟨⟨more, next⟩, placed⟩ := read.scan scanner.allowsRegex
    rcases List.mem_cons.mp member with rfl | others
    · exact Token.located_withLines placed.lines placed.start_le next.upTo
    · exact ih next token others

/-- A whole scan gives the tokens that were read on the way, where they were then. -/
theorem HasRead.scanAll_reads (read : scanner.HasRead source initial taken) :
    ∃ tokens, Reads scanner tokens scanner.scanAll.reports scanner.scanAll.scanner ∧
      ∀ test : Token → Bool, (∀ token lines, test (token.withLines lines) = test token) →
        (scanner.scanAll.tokens.filter test).map Token.located =
          (tokens.filter test).map Token.located ∧
        (scanner.scanAll.tokens.filter test).map Token.afterLineBreak =
          (tokens.filter test).map Token.afterLineBreak := by
  obtain ⟨tokens, reads, same⟩ := scanner.scanAll_reads
  refine ⟨tokens, reads, ?_⟩
  intro test blind
  obtain ⟨lines, -⟩ := reads.located read
  have kept : test ∘ (·.withLines (ofText source initial)) = test :=
    funext fun token => blind token _
  rw [same, lines, List.filter_map, kept, List.map_map, List.map_map]
  refine ⟨?_, rfl⟩
  apply List.map_congr_left
  intro token member
  exact reads.located_withLines read token (List.mem_filter.mp member).1

end Scanner

end ScriptSyntax
